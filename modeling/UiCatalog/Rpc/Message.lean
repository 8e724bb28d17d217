import UiCatalog.Json.Decode
import UiCatalog.Json.Written
import UiCatalog.Rpc.Reply

/-!
# Incoming messages

A message is a request, which has an id and is answered, or a notification, which is not. `Message.parse`
reads one from a text or gives the reply that rejects it.
-/
namespace UiCatalog.Rpc

open Json

structure Request where
  id : RequestId
  method : String
  /-- The parameters, absent when they are null. -/
  params : Option Json

structure Notification where
  method : String
  params : Option Json

inductive Message where
  | request (r : Request)
  | notification (n : Notification)

/-- The id and the failure with which a text is rejected. -/
structure Rejection where
  id : Option RequestId
  failure : Failure
  deriving DecidableEq, Repr

def Rejection.reply (r : Rejection) : Reply := .failure r.id r.failure

namespace Message

/-- The members of a message that are known so far. -/
structure Draft where
  id : Option RequestId := none
  method : Option String := none
  params : Option Json := none

def takeVersion (v : Json) (s : Draft) : Except DecodeError Draft := (decodeText v).map fun _ => s

def takeId (v : Json) (s : Draft) : Except DecodeError Draft :=
  match RequestId.ofJson? v with
  | some id => .ok { s with id := some id }
  | none => .error (.noVariant "RequestId")

def takeMethod (v : Json) (s : Draft) : Except DecodeError Draft :=
  (decodeText v).map fun method => { s with method := some method }

def takeParams (v : Json) (s : Draft) : Except DecodeError Draft :=
  (decodeOptional .ok v).map fun params => { s with params }

def requestShape : RecordShape Draft where
  name := "JsonRpcRequest"
  fields := [("jsonrpc", takeVersion), ("id", takeId), ("method", takeMethod), ("params", takeParams)]
  missing? s :=
    if s.id.isNone then some (1, "id") else if s.method.isNone then some (2, "method") else none

def notificationShape : RecordShape Draft where
  name := "JsonRpcNotification"
  fields := [("jsonrpc", takeVersion), ("method", takeMethod), ("params", takeParams)]
  missing? s := if s.method.isNone then some (1, "method") else none

def ofRequest (v : Json) : Except Rejection Message :=
  match requestShape.decode {} v with
  | .ok ⟨some id, some method, params⟩ =>
    if method = "" then .error ⟨some id, .invalidRequest "method field cannot be empty"⟩
    else .ok (.request ⟨id, method, params⟩)
  | .ok _ => .error ⟨none, .ofCode .invalidRequest⟩
  | .error e => .error ⟨none, .invalidRequest ("Invalid request: " ++ e.message)⟩

def ofNotification (v : Json) : Except Rejection Message :=
  match notificationShape.decode {} v with
  | .ok s => .ok (.notification ⟨s.method.getD "", s.params⟩)
  | .error e => .error ⟨none, .invalidRequest ("Invalid notification: " ++ e.message)⟩

def ofJson (v : Json) : Except Rejection Message :=
  match v with
  | .object members =>
    if (members.lookup "jsonrpc").bind Json.text? = some "2.0" then
      if (members.lookup "id").isSome then ofRequest v else ofNotification v
    else .error ⟨none, .invalidRequest "jsonrpc field must be \"2.0\""⟩
  | _ => .error ⟨none, .parseError⟩

def parse (raw : String) : Except Rejection Message :=
  match Json.parse? raw with
  | none => .error ⟨none, .parseError⟩
  | some v => ofJson v

end Message

end UiCatalog.Rpc
