import UiCatalog.Rpc.Handler

/-!
# Sessions

Every client has a session: a handler and a stream of events. A session is in the table from the moment it is
opened until its stream is dropped or it is closed; requests in flight may hold it longer, and then its stream
does not end before they are done. An event of the stream is sent as text: a line with its name, a line with its
data, which is one line, and an empty line.
-/
namespace UiCatalog

/-- What a session tells its client. -/
inductive StreamEvent where
  /-- Where the client has to post its messages. -/
  | endpoint (path : String)
  /-- A reply, as JSON. -/
  | message (data : String)
  deriving DecidableEq, Repr

namespace StreamEvent

def name : StreamEvent → String
  | endpoint _ => "endpoint"
  | message _ => "message"

def data : StreamEvent → String
  | endpoint path => path
  | message data => data

/-- The event as it is sent. -/
def frame (e : StreamEvent) : String := "event: " ++ e.name ++ "\ndata: " ++ e.data ++ "\n\n"

end StreamEvent

/-- Events as they are sent, one after the other. -/
def frames (events : List StreamEvent) : String := String.join (events.map StreamEvent.frame)

structure Session where
  id : String
  handler : Rpc.Handler := {}
  /-- The session is in the table. -/
  live : Bool := true
  /-- Someone beside the table refers to the session. -/
  held : Bool := false
  /-- The stream has not been dropped. -/
  reading : Bool := true
  /-- The events that wait on the stream. -/
  pending : List StreamEvent := []

namespace Session

def messagesPath : String := "/messages"

/-- Where the client posts its messages. -/
def endpointOf (id : String) : String := messagesPath ++ "?sessionId=" ++ id

def endpoint (s : Session) : String := endpointOf s.id

/-- Puts an event on the stream, which fails once the stream has been dropped. -/
def send (s : Session) (e : StreamEvent) : Session × Bool × List Log.Event :=
  if s.reading then ({ s with pending := s.pending ++ [e] }, true, [])
  else (s, false, [{
    level := .warn
    topic := .sessions
    message := "Dropping reply for closed session"
    fields := [("session", .bare s.id)] }])

def deliver (s : Session) (r : Rpc.Reply) : Session × Bool × List Log.Event := s.send (.message r.text)

/-- Handles one posted text and sends the reply, if there is one. -/
def handle (catalog : Catalog) (s : Session) (raw : String) : Session × List Log.Event :=
  let outcome := s.handler.handle catalog raw
  let s := { s with handler := outcome.handler }
  match outcome.reply with
  | none => (s, outcome.events)
  | some reply =>
    let (s, _, events) := s.deliver reply
    (s, outcome.events ++ events)

/-- Nothing will come on the stream any more. -/
def ended (s : Session) : Bool := s.reading && !s.live && !s.held && s.pending.isEmpty

end Session

/-- All sessions in the order in which they were opened, also those that have left the table. -/
structure SessionTable where
  sessions : List Session := []

namespace SessionTable

def empty : SessionTable := {}

def size (t : SessionTable) : Nat := (t.sessions.filter (·.live)).length

def isEmpty (t : SessionTable) : Bool := t.size == 0

def session? (t : SessionTable) (id : String) : Option Session := t.sessions.find? (·.id == id)

/-- The session of an id, if it is in the table. -/
def live? (t : SessionTable) (id : String) : Option Session :=
  (t.session? id).filter (·.live)

def update (t : SessionTable) (id : String) (change : Session → Session) : SessionTable :=
  ⟨t.sessions.map fun s => if s.id = id then change s else s⟩

/-- Opens a session under a new id; its first event tells where to post. -/
def opening (t : SessionTable) (id : String) : SessionTable × List Log.Event :=
  let opened : SessionTable :=
    ⟨t.sessions ++ [{ id, pending := [.endpoint (Session.endpointOf id)] }]⟩
  (opened, [{
    level := .info
    topic := .sessions
    message := "Session opened"
    fields := [("session", .bare id), ("open", .number opened.size)] }])

/-- Takes a session out of the table, and whether it was there. -/
def remove (t : SessionTable) (id : String) : SessionTable × Bool :=
  (t.update id fun s => { s with live := false }, (t.live? id).isSome)

/-- Drops the stream of a session, which takes the session out of the table. -/
def dropStream (t : SessionTable) (id : String) : SessionTable × List Log.Event :=
  match t.session? id with
  | none => (t, [])
  | some s =>
    if !s.reading then (t, [])
    else
      let event : Log.Event := {
        level := if s.live then .info else .debug
        topic := .sessions
        message := if s.live then "Session closed" else "Session stream ended"
        fields := [("session", .bare id)] }
      (t.update id fun s => { s with live := false, reading := false, pending := [] }, [event])

/-- Takes every session out of the table. -/
def closeAll (t : SessionTable) : SessionTable × List Log.Event :=
  let closed := t.size
  (⟨t.sessions.map fun s => { s with live := false }⟩,
    if closed = 0 then []
    else [{
      level := .info
      topic := .sessions
      message := "Closed all sessions"
      fields := [("closed", .number closed)] }])

def handle (catalog : Catalog) (t : SessionTable) (id raw : String) : SessionTable × List Log.Event :=
  match t.session? id with
  | none => (t, [])
  | some s => (t.update id fun s => (s.handle catalog raw).1, (s.handle catalog raw).2)

/-- Sends a reply on the stream of a session, and whether that worked. -/
def deliver (t : SessionTable) (id : String) (r : Rpc.Reply) : SessionTable × Bool × List Log.Event :=
  match t.session? id with
  | none => (t, false, [])
  | some s =>
    let (_, sent, events) := s.deliver r
    (t.update id fun s => (s.deliver r).1, sent, events)

/-- Takes waiting events off a stream: the first ones up to a limit, or all of them. -/
def take (t : SessionTable) (id : String) (limit : Option Nat) : SessionTable × List StreamEvent :=
  let count (s : Session) := limit.getD s.pending.length
  (t.update id fun s => { s with pending := s.pending.drop (count s) },
    ((t.session? id).map fun s => s.pending.take (count s)).getD [])

def receive (t : SessionTable) (id : String) : SessionTable × List StreamEvent := t.take id none

end SessionTable

end UiCatalog
