import Mathlib.Data.List.Forall2
import UiCatalog.Json.Decode
import UiCatalog.Proofs.JsonOrder

/-!
# The fields of records

A record is an object or an array of its fields in their declared order. Of several members with one key the
last counts, in a text as in its value. A part of a record that one field alone decides on is what that field
is read as.
-/
namespace UiCatalog.Json

/-- The value of a field: the last member of an object with that key, or the item of an array at the place of
the field. -/
def field? (names : List String) (key : String) : Json → Option Json
  | object members => members.reverse.lookup key
  | array items => items[names.idxOf key]?
  | _ => none

/-- What is given for the fields of a record: the members of an object, or the items of an array under the names of
their places. -/
def entries (names : List String) : Json → List (String × Json)
  | object members => members
  | array items => names.zip items
  | _ => []

/-- An object, or an array of no more items than there are fields. -/
def IsRecord (width : ℕ) : Json → Prop
  | object _ => True
  | array items => items.length ≤ width
  | _ => False

/-- What is written for a field, as in `Json.field?`. -/
def Written.field? (names : List String) (key : String) : Written → Option Written
  | .object members => (members.reverse.find? fun m => Written.text? m.1 == some key).map Prod.snd
  | .array items => items[names.idxOf key]?
  | _ => none

variable {room : Nat} {w : Written} {v : Json} {key : String}

/-! ## Fields as they are written -/

lemma membersWithin?_forall₂ {ws : List (List Piece × Written)} {ms : List (String × Json)}
    (h : Written.membersWithin? room ws = some ms) :
    List.Forall₂ (fun w m => Written.text? w.1 = some m.1 ∧ Written.valueWithin? room w.2 = some m.2) ws ms := by
  induction ws generalizing ms with
  | nil =>
    cases h
    exact .nil
  | cons w ws ih =>
    obtain ⟨pieces, w⟩ := w
    simp only [Written.membersWithin?, Option.bind_eq_bind, Option.bind_eq_some_iff] at h
    obtain ⟨key, hkey, v, hv, rest, hrest, heq⟩ := h
    cases heq
    exact .cons ⟨hkey, hv⟩ (ih hrest)

lemma valuesWithin?_forall₂ {ws : List Written} {vs : List Json} (h : Written.valuesWithin? room ws = some vs) :
    List.Forall₂ (fun w v => Written.valueWithin? room w = some v) ws vs := by
  induction ws generalizing vs with
  | nil =>
    cases h
    exact .nil
  | cons w ws ih =>
    simp only [Written.valuesWithin?, Option.bind_eq_bind, Option.bind_eq_some_iff] at h
    obtain ⟨v, hv, rest, hrest, heq⟩ := h
    cases heq
    exact .cons hv (ih hrest)

lemma rel_find?_lookup {ws : List (List Piece × Written)} {ms : List (String × Json)} (key : String)
    (h : List.Forall₂ (fun w m => Written.text? w.1 = some m.1 ∧ Written.valueWithin? room w.2 = some m.2) ws ms) :
    Option.Rel (fun w v => Written.valueWithin? room w = some v)
      ((ws.find? fun w => Written.text? w.1 == some key).map Prod.snd) (ms.lookup key) := by
  induction h with
  | nil => exact .none
  | @cons w m ws ms hm hms ih =>
    rw [List.find?_cons, lookup_cons_ite, hm.1]
    by_cases hkey : key = m.1
    · simpa [hkey] using Option.Rel.some hm.2
    · have hne : (some m.1 == some key) = false := by simpa using Ne.symm hkey
      rw [hne, if_neg hkey]
      exact ih

lemma rel_getElem? {ws : List Written} {vs : List Json} (i : Nat)
    (h : List.Forall₂ (fun w v => Written.valueWithin? room w = some v) ws vs) :
    Option.Rel (fun w v => Written.valueWithin? room w = some v) ws[i]? vs[i]? := by
  induction h generalizing i with
  | nil => exact .none
  | cons hv hvs ih =>
    cases i with
    | zero => exact .some hv
    | succ i => simpa using ih i

/-- A field of a value is what is written for it, read one level further in. -/
lemma rel_field? (h : Written.valueWithin? room w = some v) (names : List String) (key : String) :
    Option.Rel (fun w v => Written.valueWithin? (room - 1) w = some v) (w.field? names key) (v.field? names key) := by
  cases w with
  | object ws =>
    rw [Written.valueWithin?] at h
    split_ifs at h
    obtain ⟨ms, hms, rfl⟩ := Option.map_eq_some_iff.1 h
    have hlast : (sortMembers ms).reverse.lookup key = ms.reverse.lookup key := by
      rw [lookup_reverse (nodup_of_sorted (sorted_sortMembers ms)), lookup_sortMembers]
    rw [Written.field?, field?, hlast]
    exact rel_find?_lookup key (List.forall₂_reverse_iff.2 (membersWithin?_forall₂ hms))
  | array ws =>
    rw [Written.valueWithin?] at h
    split_ifs at h
    obtain ⟨vs, hvs, rfl⟩ := Option.map_eq_some_iff.1 h
    exact rel_getElem? _ (valuesWithin?_forall₂ hvs)
  | null | bool b =>
    cases h
    exact .none
  | number n =>
    obtain ⟨n, -, rfl⟩ := Option.map_eq_some_iff.1 h
    exact .none
  | string pieces =>
    obtain ⟨s, -, rfl⟩ := Option.map_eq_some_iff.1 h
    exact .none

lemma field?_of_written {names : List String} {w' : Written} (h : Written.valueWithin? room w = some v)
    (hfield : w.field? names key = some w') :
    ∃ v', v.field? names key = some v' ∧ Written.valueWithin? (room - 1) w' = some v' := by
  have hrel := rel_field? h names key
  rw [hfield] at hrel
  cases hv : v.field? names key with
  | none =>
    rw [hv] at hrel
    cases hrel
  | some v' =>
    rw [hv] at hrel
    cases hrel with
    | some hv' => exact ⟨v', rfl, hv'⟩

lemma field?_of_not_written {names : List String} (h : Written.valueWithin? room w = some v)
    (hfield : w.field? names key = none) : v.field? names key = none := by
  have hrel := rel_field? h names key
  rw [hfield] at hrel
  cases hv : v.field? names key with
  | none => rfl
  | some v' =>
    rw [hv] at hrel
    cases hrel

/-! ## Fields as they are decoded -/

namespace RecordShape

variable {σ β : Type} {shape : RecordShape σ} {fields : List (String × (Json → σ → Except DecodeError σ))}
  {part : σ → β} {read : Json → β} {start s s' : σ} {members : List (String × Json)} {items : List Json}

/-- The field `key` alone decides on a part of the record, which it is read as. -/
structure Decides (fields : List (String × (Json → σ → Except DecodeError σ))) (key : String) (part : σ → β)
    (read : Json → β) : Prop where
  declared : key ∈ fields.map Prod.fst
  own : ∀ take, (key, take) ∈ fields → ∀ v s s', take v s = .ok s' → part s' = read v
  other : ∀ k take, (k, take) ∈ fields → k ≠ key → ∀ v s s', take v s = .ok s' → part s' = part s

/-- Entries that set the part only for the one key, and to what is read there, decide on it. -/
lemma Decides.of_take (hdeclared : key ∈ fields.map Prod.fst)
    (htake : ∀ k take, (k, take) ∈ fields → ∀ v s s', take v s = .ok s' →
      part s' = if k = key then read v else part s) : Decides fields key part read where
  declared := hdeclared
  own := fun take hmem v s s' h => (htake key take hmem v s s' h).trans (if_pos rfl)
  other := fun k take hmem hne v s s' h => (htake k take hmem v s s' h).trans (if_neg hne)

lemma mem_of_lookup {take : Json → σ → Except DecodeError σ} (h : fields.lookup key = some take) :
    (key, take) ∈ fields := by
  obtain ⟨before, after, rfl, -⟩ := List.lookup_eq_some_iff.1 h
  simp

lemma bind_ok {ε : Type} {x : Except ε σ} {f : σ → Except ε σ} (h : x >>= f = .ok s') :
    ∃ s, x = .ok s ∧ f s = .ok s' := by
  cases x with
  | error e => cases h
  | ok s => exact ⟨s, rfl, h⟩

lemma map_ok {ε α γ : Type} {x : Except ε α} {f : α → γ} {y : γ} (h : x.map f = .ok y) :
    ∃ a, x = .ok a ∧ f a = y := by
  cases x with
  | error e => cases h
  | ok a => exact ⟨a, rfl, Except.ok.inj h⟩

lemma takeItems_cons {take : Json → σ → Except DecodeError σ} {v : Json}
    (h : takeItems ((key, take) :: fields) (v :: items) s = .ok s') :
    ∃ s₁, take v s = .ok s₁ ∧ takeItems fields items s₁ = .ok s' := bind_ok h

lemma part_takeMembers (hpart : Decides shape.fields key part read) (h : shape.takeMembers members s = .ok s') :
    part s' = ((members.reverse.lookup key).map read).getD (part s) := by
  induction members generalizing s with
  | nil =>
    cases h
    rfl
  | cons m members ih =>
    obtain ⟨k, v⟩ := m
    rw [List.reverse_cons, List.lookup_append, lookup_cons_ite]
    cases htake : shape.fields.lookup k with
    | none =>
      have hne : key ≠ k := by
        rintro rfl
        obtain ⟨m, hm, hkey⟩ := List.mem_map.1 hpart.declared
        rw [List.lookup_eq_none_iff] at htake
        simpa [hkey] using htake m hm
      rw [takeMembers, htake] at h
      rw [ih h, if_neg hne, List.lookup_nil, Option.or_none]
    | some take =>
      rw [takeMembers, htake] at h
      obtain ⟨s₁, hs₁, h⟩ := bind_ok h
      rw [ih h]
      -- what this member sets counts if no later one has the key
      by_cases hkey : key = k
      · subst hkey
        rw [hpart.own take (mem_of_lookup htake) v s s₁ hs₁, if_pos rfl]
        cases members.reverse.lookup key <;> rfl
      · rw [hpart.other k take (mem_of_lookup htake) (Ne.symm hkey) v s s₁ hs₁, if_neg hkey, List.lookup_nil,
          Option.or_none]

lemma Decides.of_subset {fields' : List (String × (Json → σ → Except DecodeError σ))}
    (hpart : Decides fields key part read) (hsubset : fields' ⊆ fields) (hdeclared : key ∈ fields'.map Prod.fst) :
    Decides fields' key part read where
  declared := hdeclared
  own := fun take hmem => hpart.own take (hsubset hmem)
  other := fun k take hmem => hpart.other k take (hsubset hmem)

/-- Members are taken in just when each declared one fits, whatever is gathered before. -/
lemma takeMembers_ok_iff {fits : String → Json → Prop}
    (hfits : ∀ k take, (k, take) ∈ shape.fields → ∀ v s, (∃ s', take v s = .ok s') ↔ fits k v) (s : σ) :
    (∃ s', shape.takeMembers members s = .ok s') ↔
      ∀ m ∈ members, m.1 ∈ shape.fields.map Prod.fst → fits m.1 m.2 := by
  induction members generalizing s with
  | nil => exact ⟨fun _ m hm => absurd hm List.not_mem_nil, fun _ => ⟨s, rfl⟩⟩
  | cons m members ih =>
    obtain ⟨k, v⟩ := m
    rw [List.forall_mem_cons]
    cases htake : shape.fields.lookup k with
    | none =>
      have hundeclared : k ∉ shape.fields.map Prod.fst := by
        intro hmem
        obtain ⟨f, hf, rfl⟩ := List.mem_map.1 hmem
        rw [List.lookup_eq_none_iff] at htake
        simpa using htake f hf
      rw [takeMembers, htake]
      exact (ih s).trans ⟨fun h => ⟨fun hk => absurd hk hundeclared, h⟩, And.right⟩
    | some take =>
      have hmem := mem_of_lookup htake
      have hdeclared : k ∈ shape.fields.map Prod.fst := List.mem_map.2 ⟨_, hmem, rfl⟩
      rw [takeMembers, htake]
      constructor
      · rintro ⟨s', h⟩
        obtain ⟨s₁, hs₁, h⟩ := bind_ok h
        exact ⟨fun _ => (hfits k take hmem v s).1 ⟨s₁, hs₁⟩, (ih s₁).1 ⟨s', h⟩⟩
      · rintro ⟨hv, hrest⟩
        obtain ⟨s₁, hs₁⟩ := (hfits k take hmem v s).2 (hv hdeclared)
        obtain ⟨s', h⟩ := (ih s₁).2 hrest
        refine ⟨s', ?_⟩
        simp only [hs₁]
        exact h

/-- Items are taken in just when each of those with a field fits. -/
lemma takeItems_ok_iff {fits : String → Json → Prop}
    (hfits : ∀ k take, (k, take) ∈ fields → ∀ v s, (∃ s', take v s = .ok s') ↔ fits k v) (s : σ) :
    (∃ s', takeItems fields items s = .ok s') ↔ ∀ m ∈ (fields.map Prod.fst).zip items, fits m.1 m.2 := by
  induction fields generalizing items s with
  | nil => exact ⟨fun _ m hm => absurd hm List.not_mem_nil, fun _ => by cases items <;> exact ⟨s, rfl⟩⟩
  | cons f fields ih =>
    obtain ⟨k, take⟩ := f
    cases items with
    | nil => exact ⟨fun _ m hm => absurd hm List.not_mem_nil, fun _ => ⟨s, rfl⟩⟩
    | cons v items =>
      have htake := hfits k take List.mem_cons_self v s
      have hrest (s : σ) : (∃ s', takeItems fields items s = .ok s') ↔
          ∀ m ∈ (fields.map Prod.fst).zip items, fits m.1 m.2 :=
        ih (fun k take hmem => hfits k take (List.mem_cons_of_mem _ hmem)) s
      rw [List.map_cons, List.zip_cons_cons, List.forall_mem_cons]
      constructor
      · rintro ⟨s', h⟩
        obtain ⟨s₁, hs₁, h⟩ := takeItems_cons h
        exact ⟨htake.1 ⟨s₁, hs₁⟩, (hrest s₁).1 ⟨s', h⟩⟩
      · rintro ⟨hv, hitems⟩
        obtain ⟨s₁, hs₁⟩ := htake.2 hv
        obtain ⟨s', h⟩ := (hrest s₁).2 hitems
        exact ⟨s', by rw [takeItems, hs₁]; exact h⟩

/-- A field that is not declared decides on nothing. -/
lemma part_takeItems_of_not_mem (hkey : key ∉ fields.map Prod.fst)
    (hother : ∀ k take, (k, take) ∈ fields → k ≠ key → ∀ v s s', take v s = .ok s' → part s' = part s)
    (h : takeItems fields items s = .ok s') : part s' = part s := by
  induction fields generalizing items s with
  | nil =>
    cases items <;> cases h <;> rfl
  | cons f fields ih =>
    obtain ⟨k, take⟩ := f
    cases items with
    | nil =>
      cases h
      rfl
    | cons v items =>
      rw [List.map_cons, List.mem_cons, not_or] at hkey
      obtain ⟨s₁, hs₁, h⟩ := takeItems_cons h
      rw [ih hkey.2 (fun k take hmem => hother k take (List.mem_cons_of_mem _ hmem)) h]
      exact hother k take List.mem_cons_self (Ne.symm hkey.1) v s s₁ hs₁

lemma part_takeItems (hpart : Decides fields key part read) (hdistinct : (fields.map Prod.fst).Nodup)
    (h : takeItems fields items s = .ok s') :
    part s' = ((items[(fields.map Prod.fst).idxOf key]?).map read).getD (part s) := by
  induction fields generalizing items s with
  | nil => exact absurd hpart.declared List.not_mem_nil
  | cons f fields ih =>
    obtain ⟨k, take⟩ := f
    rw [List.map_cons, List.nodup_cons] at hdistinct
    have hrest : ∀ k take, (k, take) ∈ fields → k ≠ key → ∀ v s s', take v s = .ok s' → part s' = part s :=
      fun k take hmem => hpart.other k take (List.mem_cons_of_mem _ hmem)
    cases items with
    | nil =>
      cases h
      rfl
    | cons v items =>
      obtain ⟨s₁, hs₁, h⟩ := takeItems_cons h
      by_cases hkey : k = key
      · subst hkey
        rw [part_takeItems_of_not_mem hdistinct.1 hrest h, hpart.own take List.mem_cons_self v s s₁ hs₁]
        simp
      · have hdeclared : key ∈ fields.map Prod.fst :=
          (List.mem_cons.1 hpart.declared).resolve_left (Ne.symm hkey)
        have hown : ∀ take, (key, take) ∈ fields → ∀ v s s', take v s = .ok s' → part s' = read v :=
          fun take hmem => hpart.own take (List.mem_cons_of_mem _ hmem)
        rw [ih ⟨hdeclared, hown, hrest⟩ hdistinct.2 h, hpart.other k take List.mem_cons_self hkey v s s₁ hs₁,
          List.map_cons, List.idxOf_cons_ne _ hkey, List.getElem?_cons_succ]

/-- What a decoded record holds for a field is what the field is read as. -/
lemma part_decode (hpart : Decides shape.fields key part read) (hdistinct : (shape.fields.map Prod.fst).Nodup)
    {v : Json} (h : shape.decode start v = .ok s) :
    part s = ((v.field? (shape.fields.map Prod.fst) key).map read).getD (part start) := by
  cases v with
  | object members =>
    obtain ⟨s₁, hs₁, h⟩ := bind_ok h
    split at h
    · cases h
    · cases h
      exact part_takeMembers hpart hs₁
  | array items =>
    obtain ⟨s₁, hs₁, h⟩ := bind_ok h
    split at h
    · cases h
    · split at h
      · cases h
      · cases h
        exact part_takeItems hpart hdistinct hs₁
  | null | bool | number | string => cases h

lemma decode_object_ok_iff :
    shape.decode start (.object members) = .ok s ↔
      shape.takeMembers members start = .ok s ∧ shape.missing? s = none := by
  rw [decode]
  cases shape.takeMembers members start with
  | error e => simp [bind, Except.bind]
  | ok s' =>
    simp only [bind, Except.bind, Except.ok.injEq]
    split
    · next hmissing => exact iff_of_false (by simp) fun h => by rw [h.1, h.2] at hmissing; cases hmissing
    · next hmissing => exact ⟨fun h => by cases h; exact ⟨rfl, hmissing⟩, fun h => by rw [h.1]⟩

lemma decode_array_ok_iff :
    shape.decode start (.array items) = .ok s ↔
      takeItems shape.fields items start = .ok s ∧ shape.missing? s = none ∧ items.length ≤ shape.fields.length := by
  rw [decode]
  cases takeItems shape.fields items start with
  | error e => simp [bind, Except.bind]
  | ok s' =>
    simp only [bind, Except.bind, Except.ok.injEq]
    split
    · next hmissing => exact iff_of_false (by simp) fun h => by rw [h.1, h.2.1] at hmissing; cases hmissing
    · next hmissing =>
      split_ifs with hlong
      · exact iff_of_false (by simp) fun h => absurd h.2.2 (not_le.2 hlong)
      · exact ⟨fun h => by cases h; exact ⟨rfl, hmissing, not_lt.1 hlong⟩, fun h => by rw [h.1]⟩

lemma missing?_of_decode {v : Json} (h : shape.decode start v = .ok s) : shape.missing? s = none := by
  cases v with
  | object members => exact (decode_object_ok_iff.1 h).2
  | array items => exact (decode_array_ok_iff.1 h).2.1
  | null | bool | number | string => cases h

/-- A record of which one field has to be given is decoded just when that field is there and every given one fits. -/
lemma exists_decode_iff {γ : Type} {part : σ → Option γ} {read : Json → Option γ} {fits : String → Json → Prop}
    (hfits : ∀ k take, (k, take) ∈ shape.fields → ∀ v s, (∃ s', take v s = .ok s') ↔ fits k v)
    (hdistinct : (shape.fields.map Prod.fst).Nodup) (hpart : Decides shape.fields key part read)
    (hmissing : ∀ s, shape.missing? s = none ↔ (part s).isSome) (hstart : part start = none) (v : Json) (a : γ) :
    (∃ s, shape.decode start v = .ok s ∧ part s = some a) ↔
      v.IsRecord shape.fields.length ∧
        (∀ m ∈ v.entries (shape.fields.map Prod.fst), m.1 ∈ shape.fields.map Prod.fst → fits m.1 m.2) ∧
        (v.field? (shape.fields.map Prod.fst) key).bind read = some a := by
  have hread {value? : Option Json} {s : σ} (h : part s = (value?.map read).getD (part start)) :
      part s = value?.bind read := by
    rw [h, hstart]
    cases value? <;> rfl
  have hgiven {s : σ} (h : part s = some a) : shape.missing? s = none := (hmissing s).2 (Option.isSome_of_eq_some h)
  cases v with
  | object members =>
    simp only [decode_object_ok_iff, IsRecord, true_and]
    rw [entries, ← takeMembers_ok_iff hfits start]
    constructor
    · rintro ⟨s, ⟨hs, -⟩, ha⟩
      exact ⟨⟨s, hs⟩, (hread (part_takeMembers hpart hs)).symm.trans ha⟩
    · rintro ⟨⟨s, hs⟩, ha⟩
      have hpart := (hread (part_takeMembers hpart hs)).trans ha
      exact ⟨s, ⟨hs, hgiven hpart⟩, hpart⟩
  | array items =>
    have hall : (∀ m ∈ (shape.fields.map Prod.fst).zip items, m.1 ∈ shape.fields.map Prod.fst → fits m.1 m.2) ↔
        ∀ m ∈ (shape.fields.map Prod.fst).zip items, fits m.1 m.2 :=
      ⟨fun h m hm => h m hm (List.of_mem_zip hm).1, fun h m hm _ => h m hm⟩
    simp only [decode_array_ok_iff, IsRecord]
    rw [entries, hall, ← takeItems_ok_iff hfits start]
    constructor
    · rintro ⟨s, ⟨hs, -, hlength⟩, ha⟩
      exact ⟨hlength, ⟨s, hs⟩, (hread (part_takeItems hpart hdistinct hs)).symm.trans ha⟩
    · rintro ⟨hlength, ⟨s, hs⟩, ha⟩
      have hpart := (hread (part_takeItems hpart hdistinct hs)).trans ha
      exact ⟨s, ⟨hs, hgiven hpart, hlength⟩, hpart⟩
  | null | bool | number | string => exact iff_of_false (fun ⟨_, h, _⟩ => by cases h) fun h => h.1

end RecordShape

end UiCatalog.Json
