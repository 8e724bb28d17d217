import UiCatalog.Http.Query
import UiCatalog.Session

/-!
# Routes

The server answers four paths. A client opens a session with `GET /sse` and posts its messages to
`/messages`; `/` and `/health` tell about the server. Requests from other origins are allowed everywhere.
-/
namespace UiCatalog.Http

open Json

structure Request where
  method : String
  /-- The path with an optional query string. -/
  target : String
  body : List UInt8 := []

/-- The content of a response. -/
inductive Body where
  | text (s : String)
  /-- The events of the session of an id. -/
  | stream (session : String)
  deriving DecidableEq, Repr

structure Response where
  status : Nat
  headers : List (String × String) := []
  body : Body := .text ""
  deriving DecidableEq, Repr

/-- A path that the server knows. -/
inductive Route where
  | info
  | health
  | stream
  | messages
  deriving DecidableEq, Repr

namespace Route

def ofPath? (path : String) : Option Route :=
  if path = "/" then some info
  else if path = "/health" then some health
  else if path = "/sse" then some stream
  else if path = Session.messagesPath then some messages
  else none

/-- The methods of a route, as they are listed in responses to other ones. -/
def allowed : Route → String
  | messages => "POST"
  | _ => "GET,HEAD"

def accepts (r : Route) (method : String) : Bool :=
  if r = messages then method == "POST" else method == "GET" || method == "HEAD"

end Route

def endsAuthority (c : Char) : Bool := c == '/' || c == '?' || c == '#'

/-- The part of a target behind a scheme and an authority, if it has them, and before its fragment. -/
def localPart (target : List Char) : List Char :=
  let scheme := target.takeWhile fun c => c != ':' && !endsAuthority c
  let rest := match target.drop scheme.length with
    | ':' :: '/' :: '/' :: rest => rest.dropWhile fun c => !endsAuthority c
    | _ => target
  rest.takeWhile (· != '#')

/-- The path of a target; an empty one stands for the root. -/
def pathOf (target : String) : String :=
  let path := (localPart target.toList).takeWhile (· != '?')
  if path.isEmpty then "/" else String.ofList path

def queryOf (target : String) : List Char := ((localPart target.toList).dropWhile (· != '?')).drop 1

def jsonResponse (status : Nat) (v : Json) : Response :=
  { status, headers := [("content-type", "application/json")], body := .text v.compact }

def textResponse (status : Nat) (s : String) : Response :=
  { status, headers := [("content-type", "text/plain; charset=utf-8")], body := .text s }

def errorResponse (message : String) : Response :=
  jsonResponse 400 (.object [("error", .string message)])

def infoJson (catalog : Catalog) (sessions : Nat) : Json :=
  sortKeys <| .object [
    ("name", .string Rpc.serverName),
    ("version", .string Rpc.serverVersion),
    ("protocolVersion", .string Rpc.protocolVersion),
    ("transport", .string "sse"),
    ("endpoints", .object [
      ("sse", .string "/sse"),
      ("messages", .string (Session.endpointOf "<id>")),
      ("health", .string "/health")]),
    ("catalog", catalog.metadataJson),
    ("sessions", Json.nat sessions)]

def healthJson (catalog : Catalog) (time : String) : Json :=
  .object [("status", .string "ok"), ("timestamp", .string time),
    ("components", Json.nat catalog.components.length)]

/-- What may differ from one request to the next. -/
structure Moment where
  time : String
  /-- The id for a session that is opened. -/
  freshId : String

/-- The size of the longest body that is read, in bytes. -/
def bodyLimit : Nat := 2097152

/-- The answer to a posted message: its query is checked first, then its body, then its session. -/
def postMessage (catalog : Catalog) (t : SessionTable) (query : List Char) (body : List UInt8) :
    Response × SessionTable × List Log.Event :=
  match Query.values "sessionId" query with
  | _ :: _ :: _ =>
    (textResponse 400 "Failed to deserialize query string: duplicate field `sessionId`", t, [])
  | ids =>
    if bodyLimit < body.length then
      (textResponse 413 "Failed to buffer the request body: length limit exceeded", t, [])
    else match Text.Utf8.decode body with
      | .error e => (textResponse 400 ("Request body didn't contain valid UTF-8: " ++ e.message), t, [])
      | .ok chars =>
        let id := ids.head?.getD ""
        if id = "" then (errorResponse "Missing sessionId query parameter", t, [])
        else if (t.live? id).isNone then
          (errorResponse "Invalid or expired sessionId", t, [{
            level := .warn
            topic := .routes
            message := "Message for unknown session"
            fields := [("session", .bare id)] }])
        else
          let (t, events) := t.handle catalog id (String.ofList chars)
          (textResponse 202 "Accepted", t, events)

def routeResponse (catalog : Catalog) (now : Moment) (t : SessionTable) (route : Route)
    (r : Request) : Response × SessionTable × List Log.Event :=
  match route with
  | .info => (jsonResponse 200 (infoJson catalog t.size), t, [])
  | .health => (jsonResponse 200 (healthJson catalog now.time), t, [])
  | .stream =>
    let (t, events) := t.opening now.freshId
    ({ status := 200, headers := [("content-type", "text/event-stream")],
       body := .stream now.freshId }, t, events)
  | .messages => postMessage catalog t (queryOf r.target) r.body

/-- A response without content; a stream stays one. -/
def headOnly (response : Response) : Response :=
  match response.body with
  | .text _ => { response with body := .text "" }
  | .stream _ => response

def allowHeader (route : Option Route) : List (String × String) :=
  (route.map fun r => ("allow", r.allowed)).toList

/-- The answer before the headers for other origins are added. -/
def localResponse (catalog : Catalog) (now : Moment) (t : SessionTable) (r : Request) :
    Response × SessionTable × List Log.Event :=
  match Route.ofPath? (pathOf r.target) with
  | none => ({ status := 404 }, t, [])
  | some route =>
    if route.accepts r.method then
      let (response, t, events) := routeResponse catalog now t route r
      (if r.method = "HEAD" then headOnly response else response, t, events)
    else ({ status := 405, headers := allowHeader (some route) }, t, [])

/-- The answer to a request, with the new state of the sessions and what is to be logged. -/
def respond (catalog : Catalog) (now : Moment) (t : SessionTable) (r : Request) :
    Response × SessionTable × List Log.Event :=
  if r.method = "OPTIONS" then
    ({ status := 200
       headers := [("access-control-allow-origin", "*"), ("access-control-allow-methods", "*"),
         ("access-control-allow-headers", "*")] ++ allowHeader (Route.ofPath? (pathOf r.target)) },
      t, [])
  else
    let (response, t, events) := localResponse catalog now t r
    ({ response with headers := ("access-control-allow-origin", "*") :: response.headers }, t, events)

end UiCatalog.Http
