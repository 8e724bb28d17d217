import UiCatalog.Json.Printer

/-!
# Replies

A reply answers one request: a result, or an error with a code and a message. Errors about messages whose
request is not known carry no id.
-/
namespace UiCatalog.Rpc

/-- What a client calls its request. -/
inductive RequestId where
  | number (n : Int)
  | text (s : String)
  deriving DecidableEq, Repr

namespace RequestId

def toJson : RequestId → Json
  | number n => Json.ofInt n
  | text s => .string s

def shown : RequestId → String
  | number n => toString n
  | text s => s

/-- The id that a value stands for: a text, or an integer of 64 bits with a sign. -/
def ofJson? : Json → Option RequestId
  | .number (.natural n) => if n < twoPower 63 then some (number n) else none
  | .number (.negative n) => some (number (-(n : Int) - 1))
  | .string s => some (text s)
  | _ => none

end RequestId

/-- The kinds of errors that replies report. -/
inductive ErrorCode where
  | parseError
  | invalidRequest
  | methodNotFound
  | invalidParams
  | internalError
  | resourceNotFound
  deriving DecidableEq, Repr

namespace ErrorCode

def code : ErrorCode → Int
  | parseError => -32700
  | invalidRequest => -32600
  | methodNotFound => -32601
  | invalidParams => -32602
  | internalError => -32603
  | resourceNotFound => -32002

/-- The message of an error of which nothing more is known. -/
def defaultMessage : ErrorCode → String
  | parseError => "Parse error"
  | invalidRequest => "Invalid Request"
  | methodNotFound => "Method not found"
  | invalidParams => "Invalid params"
  | internalError => "Internal error"
  | resourceNotFound => "Resource not found"

end ErrorCode

/-- Why a message is not answered with a result. -/
structure Failure where
  code : ErrorCode
  message : String
  deriving DecidableEq, Repr

namespace Failure

def ofCode (code : ErrorCode) : Failure := ⟨code, code.defaultMessage⟩

def parseError : Failure := ofCode .parseError

def invalidRequest (message : String) : Failure := ⟨.invalidRequest, message⟩

def methodNotFound (method : String) : Failure := ⟨.methodNotFound, "Method not found: " ++ method⟩

def invalidParams (message : String) : Failure := ⟨.invalidParams, message⟩

def resourceNotFound (uri : String) : Failure := ⟨.resourceNotFound, "Resource not found: " ++ uri⟩

def internalError (message : String) : Failure := ⟨.internalError, message⟩

def toJson (f : Failure) : Json :=
  .object [("code", Json.ofInt f.code.code), ("message", .string f.message)]

end Failure

inductive Reply where
  | result (id : RequestId) (value : Json)
  | failure (id : Option RequestId) (failure : Failure)

namespace Reply

def id? : Reply → Option RequestId
  | result id _ => some id
  | failure id _ => id

def toJson : Reply → Json
  | result id value =>
    .object [("jsonrpc", .string "2.0"), ("id", id.toJson), ("result", value)]
  | failure id f =>
    .object <| [("jsonrpc", .string "2.0")] ++ (id.map fun id => ("id", id.toJson)).toList ++
      [("error", f.toJson)]

def text (r : Reply) : String := r.toJson.compact

end Reply

end UiCatalog.Rpc
