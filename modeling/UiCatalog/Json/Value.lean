import UiCatalog.Number.Binary64

/-!
# JSON values

A number is a natural number below `2 ^ 64`, a negative integer from `-2 ^ 63` on, or a floating-point
number. The members of an object stand in the order in which they are written; `sortKeys` orders them by
their keys.
-/
namespace UiCatalog

inductive Json.Number where
  | natural (n : Nat)
  /-- The integer `-(n + 1)`. -/
  | negative (n : Nat)
  | float (x : Binary64)
  deriving DecidableEq, Repr

inductive Json where
  | null
  | bool (b : Bool)
  | number (n : Json.Number)
  | string (s : String)
  | array (items : List Json)
  | object (members : List (String × Json))
  deriving Repr

namespace Json

instance : Inhabited Json := ⟨null⟩

def nat (n : Nat) : Json := number (.natural n)

/-- An optional text, null if it is absent. -/
def ofText? : Option String → Json
  | some s => string s
  | none => null

/-- An integer of 64 bits with a sign. -/
def ofInt (i : Int) : Json :=
  number (if 0 ≤ i then .natural i.toNat else .negative (-i - 1).toNat)

def strings (items : List String) : Json := array (items.map string)

/-- Members by key, in increasing order; a later value for a key takes the earlier one's place. -/
def insertSorted (key : String) (value : α) : List (String × α) → List (String × α)
  | [] => [(key, value)]
  | (k, v) :: rest =>
    if key < k then (key, value) :: (k, v) :: rest
    else if key = k then (key, value) :: rest
    else (k, v) :: insertSorted key value rest

/-- Members in increasing order of their keys; of several with one key the last counts. -/
def sortMembers (members : List (String × α)) : List (String × α) :=
  members.foldl (fun sorted (key, value) => insertSorted key value sorted) []

mutual

/-- The value with the members of all its objects in the order of their keys. -/
def sortKeys : Json → Json
  | array items => array (sortItems items)
  | object members => object (sortMembers (sortValues members))
  | null => null
  | bool b => bool b
  | number n => number n
  | string s => string s

def sortItems : List Json → List Json
  | [] => []
  | v :: vs => sortKeys v :: sortItems vs

def sortValues : List (String × Json) → List (String × Json)
  | [] => []
  | (key, v) :: rest => (key, sortKeys v) :: sortValues rest

end

def member? (key : String) : Json → Option Json
  | object members => members.lookup key
  | _ => none

def text? : Json → Option String
  | string s => some s
  | _ => none

end Json

end UiCatalog
