import UiCatalog.Json.Printer
import UiCatalog.Text.Printable

/-!
# Records from JSON values

A record is decoded from an object, whose members are visited in the order of their keys, or from an array of
its fields in their declared order. The first member that has the wrong type is reported; only when all
members are well typed is the first missing field reported.
-/
namespace UiCatalog.Json

/-- Why a value is no record of the wanted type. -/
inductive DecodeError where
  | missingField (name : String)
  | invalidType (found : Json) (expected : String)
  | tooShort (length : Nat) (record : String) (fieldCount : Nat)
  | tooLong (length : Nat)
  | noVariant (type : String)

/-- The kind of a value, and for a scalar the value. -/
def shown : Json → String
  | null => "null"
  | bool b => "boolean `" ++ (if b then "true" else "false") ++ "`"
  | number (.float x) => "floating point `" ++ String.ofList (floatLayout.format x) ++ "`"
  | number n => "integer `" ++ String.ofList n.chars ++ "`"
  | string s => "string " ++ Text.quoted s
  | array _ => "sequence"
  | object _ => "map"

def elementCount (n : Nat) : String := toString n ++ if n = 1 then " element" else " elements"

def DecodeError.message : DecodeError → String
  | missingField name => "missing field `" ++ name ++ "`"
  | invalidType found expected => "invalid type: " ++ found.shown ++ ", expected " ++ expected
  | tooShort length record fieldCount =>
    "invalid length " ++ toString length ++ ", expected struct " ++ record ++ " with " ++
      elementCount fieldCount
  | tooLong length => "invalid length " ++ toString length ++ ", expected fewer elements in array"
  | noVariant type => "data did not match any variant of untagged enum " ++ type

/-- Decodes a value or says why it cannot be. -/
abbrev Decoder (α : Type) := Json → Except DecodeError α

def decodeText : Decoder String
  | string s => .ok s
  | v => .error (.invalidType v "a string")

/-- A value that may be null. -/
def decodeOptional (decode : Decoder α) : Decoder (Option α)
  | null => .ok none
  | v => (decode v).map some

def decodeMap : Decoder (List (String × Json))
  | object members => .ok members
  | v => .error (.invalidType v "a map")

/-- A record type whose fields are gathered in `σ`. -/
structure RecordShape (σ : Type) where
  name : String
  /-- The declared fields with the way in which each is taken in. -/
  fields : List (String × (Json → σ → Except DecodeError σ))
  /-- The first field that has to be given and is not, with its index. -/
  missing? : σ → Option (Nat × String)

namespace RecordShape

def takeMembers (shape : RecordShape σ) : List (String × Json) → σ → Except DecodeError σ
  | [], state => .ok state
  | (key, value) :: members, state =>
    match shape.fields.lookup key with
    | some take => do shape.takeMembers members (← take value state)
    | none => shape.takeMembers members state

/-- Takes the items of an array in, each as the field at its place. -/
def takeItems : List (String × (Json → σ → Except DecodeError σ)) → List Json → σ →
    Except DecodeError σ
  | (_, take) :: fields, value :: values, state => do takeItems fields values (← take value state)
  | _, _, state => .ok state

/-- Gathers the fields of a record, starting from the state in which none is given. -/
def decode (shape : RecordShape σ) (start : σ) : Decoder σ
  | object members => do
    let state ← shape.takeMembers members start
    match shape.missing? state with
    | some (_, name) => .error (.missingField name)
    | none => .ok state
  | array items => do
    let state ← takeItems shape.fields items start
    match shape.missing? state with
    | some (index, _) => .error (.tooShort index shape.name shape.fields.length)
    | none =>
      if items.length > shape.fields.length then .error (.tooLong items.length) else .ok state
  | v => .error (.invalidType v ("struct " ++ shape.name))

end RecordShape

end UiCatalog.Json
