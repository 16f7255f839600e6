import CorpusFeed.JsonNesting
import CorpusFeed.TextLines

/-! The frames of the site protocol: a request and a response, each wrapped with
the version of the protocol and printed as one line of JSON. -/

namespace CorpusFeed

inductive ErrorCode where
  | badInput
  | noResults
  | indexUnavailable
  | dependencyUnavailable
  | upstream
  | notImplemented
  | internal
deriving DecidableEq

def ErrorCode.all : List ErrorCode :=
  [.badInput, .noResults, .indexUnavailable, .dependencyUnavailable, .upstream, .notImplemented, .internal]

def ErrorCode.text : ErrorCode → Text
  | .badInput => "bad_input".toList
  | .noResults => "no_results".toList
  | .indexUnavailable => "index_unavailable".toList
  | .dependencyUnavailable => "dependency_unavailable".toList
  | .upstream => "upstream".toList
  | .notImplemented => "not_implemented".toList
  | .internal => "internal".toList

structure ErrorObject where
  code : ErrorCode
  message : Text
  suggestions : List Text

def ErrorObject.badInput (message : Text) : ErrorObject :=
  ⟨.badInput, message, ["Run `jurisearch help agent` for accepted commands and flags.".toList]⟩

structure SessionRequest where
  id : Option Json
  command : Text
  args : Json

/-- The two shapes of a response. Each has a field `ok` of its own. -/
inductive SessionResponse where
  | ok (id : Option Json) (flag : Bool) (result : Json)
  | err (id : Option Json) (flag : Bool) (error : ErrorObject)

inductive TransportError where
  | malformed (detail : Text)
  | oversize
  | unversioned
  | unsupportedVersion (got supported : Nat)
  | io (detail : Text)

def TransportError.text : TransportError → Text
  | .malformed detail => "malformed JSONL frame: ".toList ++ detail
  | .oversize => "request line exceeds the size limit".toList
  | .unversioned => "site frame is missing the protocol version (an unversioned/legacy frame is rejected on ".toList ++
      "the site path)".toList
  | .unsupportedVersion got supported => "unsupported protocol version ".toList ++ intText got ++
      ": this peer speaks ".toList ++ intText supported
  | .io detail => "transport I/O error: ".toList ++ detail

def protocolVersion : Nat := 1

namespace Json

def get (fields : List (Text × Json)) (key : Text) : Option Json :=
  (fields.find? fun field => field.1 = key).map Prod.snd

end Json

/-- A null id is read as no id. -/
def presentId : Json → Option Json
  | .null => none
  | id => some id

def optionalId (fields : List (Text × Json)) : Option Json := (Json.get fields "id".toList).bind presentId

def SessionRequest.value (request : SessionRequest) : Json :=
  .object [("id".toList, request.id.getD .null), ("command".toList, .string request.command),
    ("args".toList, request.args)]

def SessionRequest.ofValue : Json → Option SessionRequest
  | .object fields =>
    match Json.get fields "command".toList with
    | some (.string command) => some ⟨optionalId fields, command, (Json.get fields "args".toList).getD .null⟩
    | _ => none
  | .array [id, .string command] => some ⟨presentId id, command, .null⟩
  | .array [id, .string command, args] => some ⟨presentId id, command, args⟩
  | _ => none

def idField : Option Json → List (Text × Json)
  | none => []
  | some id => [("id".toList, id)]

def ErrorObject.value (error : ErrorObject) : Json :=
  .object ([("code".toList, .string error.code.text), ("message".toList, .string error.message)] ++
    if error.suggestions = [] then [] else [("suggestions".toList, .array (error.suggestions.map .string))])

def SessionResponse.value : SessionResponse → Json
  | .ok id flag result => .object (idField id ++ [("ok".toList, .bool flag), ("result".toList, result)])
  | .err id flag error => .object (idField id ++ [("ok".toList, .bool flag), ("error".toList, error.value)])

/-- A unit variant is its name, or an object of its name and null. -/
def ErrorCode.ofValue : Json → Option ErrorCode
  | .string name => ErrorCode.all.find? fun code => code.text = name
  | .object [(name, .null)] => ErrorCode.all.find? fun code => code.text = name
  | _ => none

def stringOf : Json → Option Text
  | .string t => some t
  | _ => none

def stringsOf : Json → Option (List Text)
  | .array items => items.mapM stringOf
  | _ => none

def ErrorObject.ofParts (code message : Option Json) (suggestions : Option Json) : Option ErrorObject :=
  match code.bind ErrorCode.ofValue, message.bind stringOf, (suggestions.map stringsOf).getD (some []) with
  | some code, some message, some suggestions => some ⟨code, message, suggestions⟩
  | _, _, _ => none

def ErrorObject.ofValue : Json → Option ErrorObject
  | .object fields => ofParts (Json.get fields "code".toList) (Json.get fields "message".toList)
      (Json.get fields "suggestions".toList)
  | .array [code, message] => ofParts (some code) (some message) none
  | .array [code, message, suggestions] => ofParts (some code) (some message) (some suggestions)
  | _ => none

/-- The shape with a result is tried first. -/
def SessionResponse.ofValue : Json → Option SessionResponse
  | .object fields =>
    match Json.get fields "ok".toList, Json.get fields "result".toList, Json.get fields "error".toList with
    | some (.bool flag), some result, _ => some (.ok (optionalId fields) flag result)
    | some (.bool flag), none, some error => (ErrorObject.ofValue error).map (.err (optionalId fields) flag)
    | _, _, _ => none
  | _ => none

/-- The wrapper around a request or a response. -/
def envelope (field : Text) (body : Json) : Json :=
  .object [("proto".toList, .number (numberOfInt protocolVersion)), (field, body)]

def siteEnvelope (request : SessionRequest) : Json := envelope "request".toList request.value

def siteResponseEnvelope (response : SessionResponse) : Json := envelope "response".toList response.value

def encodeSiteEnvelopeLine (request : SessionRequest) : Text := (siteEnvelope request).print ++ ['\n']

def encodeSiteResponseEnvelopeLine (response : SessionResponse) : Text :=
  (siteResponseEnvelope response).print ++ ['\n']

/-- The JSON library: what it reads a text as, and how it says that a value has
another shape than the expected one. It reads no text with an open bracket. -/
structure SerdeJson where
  parse : Text → Except Text Json
  shapeError : Json → Text
  parse_closed : ∀ t v, parse t = .ok v → Json.Closed t

def versionOf : Json → Option Nat
  | .number n => (readDecimal n.text).filter (· < 2 ^ 32)
  | _ => none

def decodeEnvelopeValue {α : Type} (serde : SerdeJson) (field : Text) (ofValue : Json → Option α) (value : Json) :
    Except TransportError α :=
  match value with
  | .object fields =>
    match Json.get fields "proto".toList with
    | none => .error .unversioned
    | some proto =>
      match versionOf proto, (Json.get fields field).bind ofValue with
      | some version, some body =>
        if version = protocolVersion then .ok body else .error (.unsupportedVersion version protocolVersion)
      | _, _ => .error (.malformed (serde.shapeError value))
  | _ => .error .unversioned

def decodeEnvelopeLine {α : Type} (serde : SerdeJson) (field : Text) (ofValue : Json → Option α) (line : Text) :
    Except TransportError α :=
  match serde.parse line with
  | .error detail => .error (.malformed detail)
  | .ok value => decodeEnvelopeValue serde field ofValue value

def decodeSiteEnvelopeLine (serde : SerdeJson) (line : Text) : Except TransportError SessionRequest :=
  decodeEnvelopeLine serde "request".toList SessionRequest.ofValue line

def decodeSiteResponseEnvelopeLine (serde : SerdeJson) (line : Text) : Except TransportError SessionResponse :=
  decodeEnvelopeLine serde "response".toList SessionResponse.ofValue line

end CorpusFeed
