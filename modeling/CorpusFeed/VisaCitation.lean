import CorpusFeed.TextLines
import Mathlib.Data.List.Infix

/-! The citation of a code article in an entry of a decision's visa. -/

namespace CorpusFeed

structure ParsedVisaCitation where
  articleNumberRaw : Text
  articleNumberNorm : Text
  codeNameRaw : Text
  codeNameNorm : Text
  canonicalQuery : Text
  citationKey : Text
  legifranceUrl : Option Text
  extractionMethod : Text
deriving DecidableEq

/-- What the parser takes from its libraries: the two case mappings, the query of a URL
with its pairs decoded (`none` for what is no URL), and a digest in hexadecimal. -/
structure CitationRuntime where
  toLowercase : Text → Text
  toUppercase : Text → Text
  urlQueryPairs : Text → Option (List (Text × Text))
  sha256Hex : Text → Text

/-- The first place where `needle` stands in `haystack`, ASCII letters of either case. -/
def findCi (haystack needle : Text) : Option ℕ :=
  if needle = [] ∨ haystack.length < needle.length then none
  else (List.range (haystack.length - needle.length + 1)).find? fun i =>
    ((haystack.drop i).take needle.length).map Char.toLower == needle.map Char.toLower

def extractFirstHref (html : Text) : Option Text :=
  match findCi html "href=\"".toList with
  | none => none
  | some start =>
    let rest := html.drop (start + 6)
    if '"' ∈ rest then some (rest.takeWhile (· ≠ '"')) else none

def splitWhitespace (t : Text) : List Text := (t.splitOnP isWhiteSpace).filter (· ≠ [])

def joinSpaces (words : List Text) : Text := List.intercalate [' '] words

def outsideTags : Bool → Text → Text
  | _, [] => []
  | inTag, c :: rest =>
    if c = '<' then outsideTags true rest
    else if c = '>' then outsideTags false rest
    else if inTag then outsideTags true rest
    else c :: outsideTags false rest

def stripHtmlTags (html : Text) : Text := joinSpaces (splitWhitespace (outsideTags false html))

def trimEndMatches (chars : List Char) (t : Text) : Text := t.rdropWhile fun c => decide (c ∈ chars)

def stripPrefix (start t : Text) : Option Text := if start.isPrefixOf t then some (t.drop start.length) else none

def connectors : List Text :=
  [" de la".toList, " de l'".toList, " des".toList, " du".toList, " de".toList]

namespace CitationRuntime

variable (runtime : CitationRuntime)

/-- The connector is cut off in the original text: it has as many characters there. -/
def splitArticleCode (query : Text) : Option (Text × Text) :=
  let query := trim query
  match findCi query "code".toList with
  | none => none
  | some 0 => none
  | some idx =>
    let labelled := trimEndMatches [',', ' '] (trim (query.take idx))
    let article := match stripPrefix "Article".toList labelled, stripPrefix "article".toList labelled with
      | some rest, _ => trim rest
      | none, some rest => trim rest
      | none, none => labelled
    let lower := runtime.toLowercase article
    let article := match connectors.find? fun connector => connector.isSuffixOf lower with
      | some connector => trim (article.take (article.length - connector.length))
      | none => article
    let code := trimEndMatches ['.', ',', ' '] (trim (query.drop idx))
    if article = [] ∨ code.length < 4 then none else some (article, code)

def normalizeArticleNumber (raw : Text) : Text := runtime.toUppercase (raw.filter fun c => !isWhiteSpace c)

def normalizeCodeName (raw : Text) : Text :=
  trim (trimEndMatches ['.', ','] (runtime.toLowercase (joinSpaces (splitWhitespace raw))))

def legislationCitationKey (articleNorm codeNorm : Text) : Text :=
  "legi-cite:".toList ++
    runtime.sha256Hex ("legi-citation:v1".toList ++ [Char.ofNat 0] ++ articleNorm ++ [Char.ofNat 0] ++ codeNorm)

def buildCitation (article code : Text) (legifranceUrl : Option Text) (extractionMethod : Text) :
    Option ParsedVisaCitation :=
  let articleNumberNorm := runtime.normalizeArticleNumber article
  let codeNameNorm := runtime.normalizeCodeName code
  if articleNumberNorm = [] ∨ codeNameNorm = [] then none
  else some
    { articleNumberRaw := article
      articleNumberNorm := articleNumberNorm
      codeNameRaw := code
      codeNameNorm := codeNameNorm
      canonicalQuery := articleNumberNorm ++ [' '] ++ codeNameNorm
      citationKey := runtime.legislationCitationKey articleNumberNorm codeNameNorm
      legifranceUrl := legifranceUrl
      extractionMethod := extractionMethod }

/-- The article and the code in the query of a Legifrance link, with the link. -/
def linkedCitation (title : Text) : Option (Text × Text × Text) :=
  match extractFirstHref title with
  | none => none
  | some url =>
    if "legifrance".toList <:+: url then
      match runtime.urlQueryPairs url with
      | none => none
      | some pairs => match pairs.find? fun pair => pair.1 = "query".toList with
        | none => none
        | some pair => (runtime.splitArticleCode pair.2).map fun split => (split.1, split.2, url)
    else none

def parseVisaCitation (title : Text) : Option ParsedVisaCitation :=
  match runtime.linkedCitation title with
  | some (article, code, url) => runtime.buildCitation article code (some url) "legifrance_url_query".toList
  | none => match runtime.splitArticleCode (stripHtmlTags title) with
    | some (article, code) => runtime.buildCitation article code none "visa_title_regex".toList
    | none => none

end CitationRuntime

end CorpusFeed
