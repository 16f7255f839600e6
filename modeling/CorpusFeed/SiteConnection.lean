import CorpusFeed.BoundedLine
import CorpusFeed.SiteFrames

/-! One connection of a client to the site service: the listener that serves the
lines it reads, and the calls of the client over the two byte streams. -/

namespace CorpusFeed

inductive Operation where
  | search
  | fetch
  | cite
  | related
  | context
  | compare
  | status
deriving DecidableEq

namespace Operation

def all : List Operation := [search, fetch, cite, related, context, compare, status]

def asCommand : Operation → Text
  | search => "search".toList
  | fetch => "fetch".toList
  | cite => "cite".toList
  | related => "related".toList
  | context => "context".toList
  | compare => "compare".toList
  | status => "status".toList

def parseCommand (command : Text) : Except ErrorObject Operation :=
  match all.find? fun operation => operation.asCommand = trim command with
  | some operation => .ok operation
  | none => .error (.badInput ("`".toList ++ trim command ++ "` is not a site query operation".toList))

end Operation

/-- The handlers of the service. What the n-th request of the connection gives
can depend on when it is handled. -/
structure SiteService where
  serde : SerdeJson
  registered : Operation → Bool
  handle : Nat → Operation → Json → Except ErrorObject Json

def clientDataSourceField : Json → Option Text
  | .object fields => ["index_dir".toList].find? fun field => (Json.get fields field).isSome
  | _ => none

def siteOperationNotRegistered (command : Text) : ErrorObject :=
  ⟨.notImplemented, "`".toList ++ command ++
      "` is a valid site operation but is not registered in this query-service slice".toList,
    ["This operation is served in a later work/09 slice of the site query service.".toList]⟩

def dataSourceRejected (field : Text) : ErrorObject :=
  .badInput ("the site service owns its data source; the client field `".toList ++ field ++
    "` may not be supplied to a site request".toList)

def SiteService.dispatch (service : SiteService) (n : Nat) (request : SessionRequest) : SessionResponse :=
  match clientDataSourceField request.args with
  | some field => .err request.id false (dataSourceRejected field)
  | none =>
    match Operation.parseCommand request.command with
    | .error error => .err request.id false error
    | .ok operation =>
      if service.registered operation then
        match service.handle n operation request.args with
        | .ok result => .ok request.id true result
        | .error error => .err request.id false error
      else .err request.id false (siteOperationNotRegistered operation.asCommand)

def maxLineBytes : Nat := 8 * 1024 * 1024

def maxSiteLineBytes : Nat := 2 ^ 20

/-- The listener of one connection: the bytes of the line that it is reading, and
the requests that it has dispatched. -/
structure SiteServer where
  buf : Bytes
  closed : Bool
  reported : Bool
  dispatched : List (SessionRequest × SessionResponse)

namespace SiteServer

def responseBytes (response : SessionResponse) : Bytes := asBytes (encodeSiteResponseEnvelopeLine response)

/-- A framing failure is reported once, and ends the connection. -/
def report (s : SiteServer) (message : Text) : SiteServer × Bytes :=
  ({ s with buf := [], closed := true, reported := true }, responseBytes (.err none false (.badInput message)))

def serveLine (service : SiteService) (s : SiteServer) (line : Text) : SiteServer × Bytes :=
  if trim line = [] then ({ s with buf := [] }, [])
  else
    match decodeSiteEnvelopeLine service.serde (trim line) with
    | .ok request =>
      let response := service.dispatch s.dispatched.length request
      ({ s with buf := [], dispatched := s.dispatched ++ [(request, response)] }, responseBytes response)
    | .error error => s.report ("malformed or unversioned site request frame: ".toList ++ error.text)

/-- A write that fails ends the connection after some bytes of it. -/
def cutReply (writeFails : Option Nat) (served : SiteServer × Bytes) : SiteServer × Bytes :=
  match writeFails with
  | none => served
  | some k => if served.2 = [] then served else ({ served.1 with closed := true }, served.2.take k)

def serveByte (service : SiteService) (writeFails : Option Nat) (s : SiteServer) (b : UInt8) : SiteServer × Bytes :=
  if s.closed then (s, [])
  else
    match pushByte maxSiteLineBytes s.buf b with
    | .more buf => ({ s with buf := buf }, [])
    | .line text => cutReply writeFails (s.serveLine service text)
    | .oversize => cutReply writeFails (s.report ("site request frame error: ".toList ++ TransportError.oversize.text))

def serveBytes (service : SiteService) (writeFails : Option Nat) (s : SiteServer) : Bytes → SiteServer × Bytes
  | [] => (s, [])
  | b :: rest =>
    let (s', reply) := s.serveByte service writeFails b
    let (s'', replies) := s'.serveBytes service writeFails rest
    (s'', reply ++ replies)

/-- The read of the listener fails, once it has taken what came before. -/
def failRead (writeFails : Option Nat) (s : SiteServer) (detail : Text) : SiteServer × Bytes :=
  if s.closed then (s, [])
  else cutReply writeFails (s.report ("site request frame error: ".toList ++ (TransportError.io detail).text))

end SiteServer

/-- A call of `JsonlClient::request`, and where the input and output of either
side fails during it: after how many bytes, and how the listener's own failed
read reads in its report. -/
structure ClientCall where
  request : SessionRequest
  writeFails : Option Nat
  serverReadFails : Option (Nat × Text)
  serverWriteFails : Option Nat
  readFails : Option Nat

/-- The bytes of the responses that the client has not read yet are `unread`. -/
structure SiteConnection where
  server : SiteServer
  unread : Bytes

namespace SiteConnection

def opened : SiteConnection := ⟨⟨[], false, false, []⟩, []⟩

def frame (request : SessionRequest) : Bytes := asBytes (encodeSiteEnvelopeLine request)

def takeUntil (fails : Option Nat) (bytes : Bytes) : Bytes :=
  match fails with
  | none => bytes
  | some k => bytes.take k

def leaveAfter (fails : Option Nat) (bytes : Bytes) : Bytes :=
  match fails with
  | none => []
  | some k => bytes.drop k

/-- What the listener does with the bytes that the call sends. -/
def serve (service : SiteService) (call : ClientCall) (s : SiteServer) : SiteServer × Bytes :=
  let sent := takeUntil call.writeFails (frame call.request)
  match call.serverReadFails with
  | none => s.serveBytes service call.serverWriteFails sent
  | some (k, detail) =>
    let (s', reply) := s.serveBytes service call.serverWriteFails (sent.take k)
    let (s'', report) := s'.failRead call.serverWriteFails detail
    (s'', reply ++ report)

def decodeRead (serde : SerdeJson) : LineRead → Except TransportError SessionResponse
  | .line line => decodeSiteResponseEnvelopeLine serde (trim line)
  | .eof => .error (.io "site service closed the connection before replying".toList)
  | .oversize => .error .oversize
  | .ioError => .error (.io [])

def request (service : SiteService) (c : SiteConnection) (call : ClientCall) :
    SiteConnection × Except TransportError SessionResponse :=
  let (server, reply) := serve service call c.server
  let unread := c.unread ++ reply
  match call.writeFails with
  | some _ => (⟨server, unread⟩, .error (.io []))
  | none =>
    let (read, rest) := readBoundedLine maxLineBytes (server.closed && call.readFails.isNone) []
      (takeUntil call.readFails unread)
    (⟨server, rest ++ leaveAfter call.readFails unread⟩, decodeRead service.serde read)

def step (service : SiteService) (c : SiteConnection) (call : ClientCall) : SiteConnection :=
  (c.request service call).1

end SiteConnection

end CorpusFeed
