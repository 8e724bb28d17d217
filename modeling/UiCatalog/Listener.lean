import Std.Http
import Std.Time
import UiCatalog.Http.Router

/-!
# Listening

A listener answers the requests that come in over the network, one after the other, by the routes. What is
sent to a session goes on to the stream of its client.
-/
namespace UiCatalog.Listener

open Std.Http Std.Async

def now : IO String := do
  let time ← Std.Time.Timestamp.now
  return (Std.Time.DateTime.ofTimestamp time .UTC).format "uuuu-MM-dd'T'HH:mm:ss.SSSSSSSSSxxx"

def hexDigits (b : UInt8) : String :=
  let digit (n : Nat) := String.singleton (("0123456789abcdef".toList)[n]?.getD '0')
  digit (b.toNat / 16) ++ digit (b.toNat % 16)

/-- A random identifier of version four. -/
def freshId : IO String := do
  let bytes := (← IO.getRandomBytes 16).toList
  let marked := bytes.zipIdx.map fun (b, i) =>
    if i = 6 then 0x40 ||| (b &&& 0x0F) else if i = 8 then 0x80 ||| (b &&& 0x3F) else b
  let text (i n : Nat) := String.join (((marked.drop i).take n).map hexDigits)
  return "-".intercalate [text 0 4, text 4 2, text 6 2, text 8 2, text 10 6]

/-- The sessions, and the channels on which their clients wait. -/
structure State where
  table : SessionTable := .empty
  channels : List (String × Std.CloseableChannel String) := []

end UiCatalog.Listener

namespace UiCatalog

structure Listener where
  catalog : Catalog
  state : Std.Mutex Listener.State
  /-- Tells of an event. -/
  tell : Log.Event → IO Unit

namespace Listener

open Std.Http Std.Async

/-- Sends what waits on the streams, and ends those that have ended. -/
def flush (l : Listener) : Std.AtomicT State IO Unit := do
  for (id, channel) in (← get).channels do
    let (table, events) := (← get).table.receive id
    modify fun s => { s with table }
    let _ ← channel.send (frames events)
    if (table.session? id).any Session.ended then
      try channel.close catch _ => pure ()
      let (table, told) := table.dropStream id
      modify fun s => { table, channels := s.channels.filter (·.1 != id) }
      told.forM fun e => l.tell e

/-- Answers a request; for a stream, also gives the channel of its events. -/
def answer (l : Listener) (r : UiCatalog.Http.Request) :
    IO (UiCatalog.Http.Response × Option (Std.CloseableChannel String)) := do
  let moment : UiCatalog.Http.Moment := ⟨← now, ← freshId⟩
  l.state.atomically do
    let (response, table, events) := UiCatalog.Http.respond l.catalog moment (← get).table r
    modify fun s => { s with table }
    events.forM fun e => l.tell e
    let channel ← match response.body with
      | .text _ => pure none
      | .stream id =>
        let channel ← Std.CloseableChannel.new (α := String)
        modify fun s => { s with channels := s.channels ++ [(id, channel)] }
        pure (some channel)
    l.flush
    return (response, channel)

def leave (l : Listener) (id : String) : IO Unit :=
  l.state.atomically do
    let (table, events) := (← get).table.dropStream id
    modify fun s => { table, channels := s.channels.filter (·.1 != id) }
    events.forM fun e => l.tell e

/-- Sends what comes on a channel to a client until one of them ends. -/
def forward (channel : Std.CloseableChannel String) (stream : Body.Stream) : Async Unit := do
  let mut going := true
  while going do
    match ← await (← channel.recv) with
    | none => going := false
    | some text => stream.send (Chunk.ofByteArray text.toUTF8)

def headOf (response : UiCatalog.Http.Response) : Response.Builder :=
  let status := (Status.ofCode none response.status.toUInt16).getD .internalServerError
  response.headers.foldl (fun b (name, value) => b.header! name value) (Response.withStatus status)

instance : Server.Handler Listener where
  ResponseBody := Body.Any
  onRequest l request := do
    let body : ByteArray ← request.body.readAll
    let (response, channel?) ← l.answer {
      method := toString request.line.method
      target := toString request.line.uri
      body := body.toList }
    match response.body, channel? with
    | .stream id, some channel =>
      (headOf response).stream fun stream => do
        try forward channel stream finally l.leave id
    | .text text, _ => return (headOf response).body (.ofBody (← Body.Full.ofString text))
    | _, none => return (headOf response).body (.ofBody (← Body.Full.ofString ""))

def address (host : String) (port : UInt16) : Async (Option Std.Net.SocketAddress) := do
  let found ← DNS.getAddrInfo host ""
  return found[0]?.map fun
    | .v4 addr => .v4 ⟨addr, port⟩
    | .v6 addr => .v6 ⟨addr, port⟩

def listen (catalog : Catalog) (tell : Log.Event → IO Unit) (host : String) (port : UInt16) : Async Unit := do
  let some addr ← address host port | throw (.userError "no such host")
  let state ← Std.Mutex.new ({} : State)
  let server ← Server.serve addr ({ catalog, state, tell } : Listener)
  server.waitShutdown

end Listener

end UiCatalog
