import CorpusFeed.JsonlStream
import CorpusFeed.JuriXml
import CorpusFeed.LegiMetadataXml

/-! Archive members through the two parsers. -/

namespace CorpusFeed

open JsonlOp (fromUtf8)
open LegiXml (ParsedLegiXml LegiParseError parseLegiEvents)
open JuriXml (ParsedJuriXml JuriParseError CitationPatterns parseJuriEvents)

structure XmlMember (P : Type*) where
  archivePath : P
  memberPath : Text
  bytes : Bytes

/-- What the parsers use from outside: the reader's events, the hash function, the
patterns, and how paths and bad UTF-8 are shown. -/
structure ParserSetup (P : Type*) where
  readEvents : Text → List XmlEvent
  sha256 : Bytes → Vector UInt8 32
  patterns : CitationPatterns
  fileName : P → Option Text
  display : P → Text
  utf8Error : Bytes → Text

namespace ParserSetup

variable {P : Type*} (setup : ParserSetup P)

def fromArchiveMember (member : XmlMember P) : SourceProvenance where
  archiveName := (setup.fileName member.archivePath).or
    (if (setup.display member.archivePath).isEmpty then none else some (setup.display member.archivePath))
  memberPath := some member.memberPath
  payloadHash := some (sourcePayloadHash setup.sha256 member.bytes)

def parseLegiMember (member : XmlMember P) : Except LegiParseError ParsedLegiXml :=
  match fromUtf8 member.bytes with
  | none => .error (.xml ("archive member `".toList ++ member.memberPath ++ "` is not valid UTF-8 XML: ".toList ++
      setup.utf8Error member.bytes))
  | some xml => parseLegiEvents setup.sha256 (setup.readEvents xml) xml (setup.fromArchiveMember member)

def parseJuriMember (source : ArchiveSource) (member : XmlMember P) : Except JuriParseError ParsedJuriXml :=
  match fromUtf8 member.bytes with
  | none => .error (.notUtf8 member.memberPath (setup.utf8Error member.bytes))
  | some xml =>
    parseJuriEvents setup.sha256 setup.patterns (setup.readEvents xml) source xml (setup.fromArchiveMember member)

end ParserSetup

end CorpusFeed
