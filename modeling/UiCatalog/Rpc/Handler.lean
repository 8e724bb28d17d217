import UiCatalog.Log
import UiCatalog.Resource
import UiCatalog.Rpc.Message
import UiCatalog.Tool

/-!
# The handler of a session

Every client has a handler. It waits to be initialised, then for the client to say that it is ready, and then
runs; only a running handler gives access to the catalog. `Handler.handle` takes one text and gives the new
handler, the reply, if there is one, and what is to be logged.
-/
namespace UiCatalog.Rpc

open Json

/-- How far a session has come. -/
inductive Phase where
  | awaitingInit
  | initialising
  | running
  deriving DecidableEq, Repr

structure Handler where
  phase : Phase := .awaitingInit
  /-- The agreed protocol version. -/
  version : Option String := none
  deriving DecidableEq, Repr

/-- What handling one message leads to. -/
structure Outcome where
  handler : Handler
  reply : Option Reply := none
  events : List Log.Event := []

def protocolVersion : String := "2024-11-05"

def serverName : String := "ui-docs-mcp"

def serverVersion : String := "0.1.0"

structure ClientInfo where
  name : String
  version : Option String

namespace ClientInfo

/-- A client of which the name may not be known yet. -/
structure Draft where
  name : Option String := none
  version : Option String := none

def shape : RecordShape Draft where
  name := "ClientInfo"
  fields := [
    ("name", fun v s => (decodeText v).map fun name => { s with name := some name }),
    ("version", fun v s => (decodeOptional decodeText v).map fun version => { s with version })]
  missing? s := if s.name.isNone then some (0, "name") else none

def decode : Decoder ClientInfo := fun v =>
  (shape.decode {} v).map fun s => ⟨s.name.getD "", s.version⟩

end ClientInfo

/-- What a client says of itself when it asks to be initialised. -/
structure InitializeParams where
  version : String
  client : Option ClientInfo

namespace InitializeParams

/-- Parameters of which the version may not be known yet. -/
structure Draft where
  version : Option String := none
  client : Option ClientInfo := none

def shape : RecordShape Draft where
  name := "InitializeParams"
  fields := [
    ("protocolVersion", fun v s => (decodeText v).map fun version => { s with version := some version }),
    ("capabilities", fun _ s => .ok s),
    ("clientInfo", fun v s =>
      (decodeOptional ClientInfo.decode v).map fun client => { s with client })]
  missing? s := if s.version.isNone then some (0, "protocolVersion") else none

def decode : Decoder InitializeParams := fun v =>
  (shape.decode {} v).map fun s => ⟨s.version.getD "", s.client⟩

/-- The event that tells of a new client. -/
def events (p : InitializeParams) : List Log.Event :=
  match p.client with
  | none => []
  | some client => [{
      level := .debug
      topic := .messages
      message := "Client connected"
      fields := [("client", .bare client.name), ("version", .quoted (client.version.getD "unknown")),
        ("requested", .bare p.version)] }]

end InitializeParams

/-- A tool call. -/
structure ToolCall where
  name : Option String := none
  arguments : Json := .null

def ToolCall.shape : RecordShape ToolCall where
  name := "ToolCallParams"
  fields := [
    ("name", fun v s => (decodeText v).map fun name => { s with name := some name }),
    ("arguments", fun v s => .ok { s with arguments := v })]
  missing? s := if s.name.isNone then some (0, "name") else none

/-- A resource that is to be read. -/
structure ResourceCall where
  uri : Option String := none

def ResourceCall.shape : RecordShape ResourceCall where
  name := "ResourceReadParams"
  fields := [("uri", fun v _ => (decodeText v).map fun uri => ⟨some uri⟩)]
  missing? s := if s.uri.isNone then some (0, "uri") else none

/-- The parameters of a request, decoded. -/
def Request.decodeParams (r : Request) (decode : Decoder α) : Except Failure α :=
  match r.params with
  | none => .error (.invalidParams ("Missing " ++ r.method ++ " params"))
  | some params =>
    match decode params with
    | .ok value => .ok value
    | .error e => .error (.invalidParams ("Invalid " ++ r.method ++ " params: " ++ e.message))

def initializeResult : Json :=
  let unchanged := Json.object [("listChanged", .bool false)]
  sortKeys <| .object [
    ("protocolVersion", .string protocolVersion),
    ("capabilities", .object [("tools", unchanged), ("resources", unchanged)]),
    ("serverInfo", .object [("name", .string serverName), ("version", .string serverVersion)])]

/-- What a running handler answers: the result, or why there is none, and what is to be logged. -/
def runningAnswer (catalog : Catalog) (r : Request) : Except Failure Json × List Log.Event :=
  match r.method with
  | "tools/list" =>
    (.ok (sortKeys (.object [("tools", .array (Tool.definitions.map Tool.Definition.toJson))])), [])
  | "tools/call" =>
    match r.decodeParams (ToolCall.shape.decode {}) with
    | .error f => (.error f, [])
    | .ok call =>
      let name := call.name.getD ""
      (.ok (Tool.call catalog name call.arguments).toJson.sortKeys,
        [{ level := .debug, topic := .messages, message := "Calling tool"
           fields := [("tool", .bare name)] }])
  | "resources/list" => (.ok (sortKeys (.object [("resources", Resource.definitionsJson)])), [])
  | "resources/templates/list" =>
    (.ok (sortKeys (.object [("resourceTemplates", Resource.templatesJson)])), [])
  | "resources/read" =>
    match r.decodeParams (ResourceCall.shape.decode {}) with
    | .error f => (.error f, [])
    | .ok call =>
      let uri := call.uri.getD ""
      match Resource.read? catalog uri with
      | none => (.error (.resourceNotFound uri), [])
      | some resource => (.ok (sortKeys (.object [("contents", .array [resource.toJson])])), [])
  | method => (.error (.methodNotFound method), [])

/-- The methods that only a running handler answers. -/
def guardedMethods : List String :=
  ["tools/list", "tools/call", "resources/list", "resources/templates/list", "resources/read"]

namespace Handler

def initialised : Handler := ⟨.initialising, some protocolVersion⟩

/-- The new handler and what it answers to a request. -/
def answer (catalog : Catalog) (h : Handler) (r : Request) :
    Handler × Except Failure Json × List Log.Event :=
  if r.method = "initialize" then
    if h.phase ≠ .awaitingInit then (h, .error (.invalidRequest "Server already initialised"), [])
    else match r.decodeParams InitializeParams.decode with
      | .error f => (h, .error f, [])
      | .ok params => (initialised, .ok initializeResult, params.events)
  else if r.method = "ping" then (h, .ok (.object []), [])
  else if guardedMethods.contains r.method ∧ h.phase ≠ .running then
    (h, .error (.invalidRequest "Server not initialised"), [])
  else (h, runningAnswer catalog r)

def replyTo (r : Request) : Except Failure Json → Reply
  | .ok value => .result r.id value
  | .error f => .failure (some r.id) f

def handleRequest (catalog : Catalog) (h : Handler) (r : Request) : Outcome :=
  let (next, answer, events) := h.answer catalog r
  { handler := next
    reply := some (replyTo r answer)
    events := {
      level := .debug
      topic := .messages
      message := "Handling request"
      fields := [("method", .bare r.method), ("id", .bare r.id.shown)] } :: events }

def handleNotification (h : Handler) (n : Notification) : Outcome :=
  if n.method = "notifications/initialized" ∧ h.phase = .initialising then
    { handler := { h with phase := .running } }
  else
    { handler := h
      events := [{
        level := .debug
        topic := .messages
        message := "Ignoring notification"
        fields := [("method", .bare n.method)] }] }

def handle (catalog : Catalog) (h : Handler) (raw : String) : Outcome :=
  match Message.parse raw with
  | .ok (.request r) => h.handleRequest catalog r
  | .ok (.notification n) => h.handleNotification n
  | .error rejection =>
    { handler := h
      reply := some rejection.reply
      events := [{
        level := .warn
        topic := .messages
        message := "Rejected malformed message"
        fields := [("code", .number rejection.failure.code.code)] }] }

end Handler

end UiCatalog.Rpc
