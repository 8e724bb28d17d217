import UiCatalog.Json.Written
import UiCatalog.OrderedMap

/-!
# Records from JSON texts

A record is written as an object, or as an array of its fields in their declared order. A field must not be
given twice; a field that is not declared is ignored, whatever it holds, or refused by a strict record. Every
reader is given the number of levels that may be nested from its place on.
-/
namespace UiCatalog.Json.Record

/-- Reads a value from its written form, given the number of levels that it may have. -/
abbrev Reader (α : Type) := Nat → Written → Option α

def declaredFields (keys : List String) (strict : Bool) :
    List (List Piece × Written) → Option (List (String × Written))
  | [] => some []
  | (pieces, value) :: members => do
    let key ← Written.text? pieces
    let rest ← declaredFields keys strict members
    if keys.contains key then
      if (rest.lookup key).isSome then none else return (key, value) :: rest
    else if strict then none else return rest

/-- The fields of a record, in the order in which they are given. -/
def fields? (keys : List String) (strict : Bool) : Written → Option (List (String × Written))
  | .object members => declaredFields keys strict members
  | .array items => if items.length ≤ keys.length then some (keys.zip items) else none
  | _ => none

/-- A field that has to be given. -/
def required? (fields : List (String × Written)) (key : String) (read : Written → Option α) :
    Option α :=
  (fields.lookup key).bind read

/-- A field that has a value when it is not given. -/
def withDefault? (fields : List (String × Written)) (key : String) (missing : α)
    (read : Written → Option α) : Option α :=
  match fields.lookup key with
  | none => some missing
  | some value => read value

/-- Reads a container one level further in. -/
def enter (read : Reader α) : Reader α
  | 0, _ => none
  | room + 1, w => read room w

def readText : Reader String
  | _, .string pieces => Written.text? pieces
  | _, _ => none

def readBool : Reader Bool
  | _, .bool b => some b
  | _, _ => none

/-- A natural number up to `max`. -/
def readNat (max : Nat) : Reader Nat
  | _, .number n =>
    match n.integer? with
    | some (.natural n) => if n ≤ max then some n else none
    | _ => none
  | _, _ => none

def readValue : Reader Json := fun room w => Written.valueWithin? room w

def readOptional (read : Reader α) : Reader (Option α)
  | _, .null => some none
  | room, w => (read room w).map some

def readList (read : Reader α) : Reader (List α) := enter fun room w =>
  match w with
  | .array items => items.mapM (read room)
  | _ => none

/-- A map from names in the order in which they are written. -/
def readMap (read : Reader α) : Reader (OrderedMap α) := enter fun room w =>
  match w with
  | .object members => do
    let entries ← members.mapM fun (pieces, value) => do
      return (← Written.text? pieces, ← read room value)
    return OrderedMap.ofList entries
  | _ => none

end UiCatalog.Json.Record
