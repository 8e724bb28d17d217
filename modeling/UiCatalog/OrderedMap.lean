/-!
# Maps in insertion order

A map from names that keeps its entries in the order in which their names were first inserted. A later
value for a name takes the place of the earlier one.
-/
namespace UiCatalog

/-- Entries in insertion order, no name twice. -/
structure OrderedMap (α : Type) where
  entries : List (String × α)
  distinct : (entries.map Prod.fst).Nodup
  deriving DecidableEq, Repr

namespace OrderedMap

variable {α : Type}

def empty : OrderedMap α := ⟨[], .nil⟩

instance : Inhabited (OrderedMap α) := ⟨empty⟩

/-- The entries with `value` under `key`, at the old place or at the end. -/
def put (key : String) (value : α) : List (String × α) → List (String × α)
  | [] => [(key, value)]
  | (k, v) :: rest => if k = key then (k, value) :: rest else (k, v) :: put key value rest

theorem keys_put (key : String) (value : α) (entries : List (String × α)) :
    (put key value entries).map Prod.fst =
      if key ∈ entries.map Prod.fst then entries.map Prod.fst
      else entries.map Prod.fst ++ [key] := by
  induction entries with
  | nil => simp [put]
  | cons e rest ih =>
    obtain ⟨k, v⟩ := e
    by_cases h : k = key
    · simp [put, h]
    · have h' : key ≠ k := fun e => h e.symm
      simp only [put, h, if_false, List.map_cons, ih, List.mem_cons, h', false_or]
      split <;> simp

def insert (m : OrderedMap α) (key : String) (value : α) : OrderedMap α where
  entries := put key value m.entries
  distinct := by
    rw [keys_put]
    split
    · exact m.distinct
    · next h =>
      rw [List.nodup_append]
      refine ⟨m.distinct, by simp, ?_⟩
      intro a ha b hb
      simp only [List.mem_singleton] at hb
      rintro rfl
      exact h (hb ▸ ha)

/-- The map that the entries make when they are inserted one after the other. -/
def ofList (entries : List (String × α)) : OrderedMap α :=
  entries.foldl (fun m e => m.insert e.1 e.2) empty

def get? (m : OrderedMap α) (key : String) : Option α := m.entries.lookup key

def keys (m : OrderedMap α) : List String := m.entries.map Prod.fst

end OrderedMap

end UiCatalog
