import UiCatalog.Proofs.JsonOrder

/-!
# What a text means

A text of the grammar means a value however deeply it is nested, and each of its numerals the number nearest to
it. What is written for a value on one line means the value, and has no control characters in it.
-/
namespace UiCatalog.Json

namespace Written

mutual

/-- The value that a tree means, with sorted keys of which the last counts. -/
def meaning? : Written → Option Json
  | null => some .null
  | bool b => some (.bool b)
  | number n => n.nearest?.map Json.number
  | string pieces => (text? pieces).map Json.string
  | array items => (meanings? items).map Json.array
  | object members => (memberMeanings? members).map fun members => Json.object (sortMembers members)

def meanings? : List Written → Option (List Json)
  | [] => some []
  | item :: items => do
    let v ← meaning? item
    let vs ← meanings? items
    return v :: vs

def memberMeanings? : List (List Piece × Written) → Option (List (String × Json))
  | [] => some []
  | (pieces, item) :: rest => do
    let key ← text? pieces
    let v ← meaning? item
    let vs ← memberMeanings? rest
    return (key, v) :: vs

end

end Written

def meaningOf? (text : String) : Option Json := (Written.ofText? text).bind Written.meaning?

/-- Every number of the value is one that there is. -/
inductive Proper : Json → Prop
  | null : Proper .null
  | bool (b : Bool) : Proper (.bool b)
  | number {n : Number} : n.Proper → Proper (.number n)
  | string (s : String) : Proper (.string s)
  | array {items : List Json} : (∀ v ∈ items, v.Proper) → Proper (.array items)
  | object {members : List (String × Json)} : (∀ m ∈ members, m.2.Proper) → Proper (.object members)

variable {v : Json} {c : Char} {t : List Char}

lemma Fits.proper (h : v.Fits) : v.Proper := by
  induction v using inductionOn with
  | null => exact .null
  | bool b => exact .bool b
  | number n => exact .number (Number.Fits.proper h)
  | string s => exact .string s
  | array items ih =>
    rw [Fits, itemsFit_iff] at h
    exact .array fun v hv => ih v hv (h v hv)
  | object members ih =>
    rw [Fits, membersFit_iff] at h
    exact .object fun m hm => ih m hm (h m hm)

/-! ## The text on one line -/

lemma itemsText_compact {items : List Json} (h : ∀ v ∈ items, ValueText v v.compactChars) (hne : items ≠ []) :
    ItemsText items (compactItems items) := by
  induction items with
  | nil => exact absurd rfl hne
  | cons v vs ih =>
    obtain ⟨hv, hvs⟩ := List.forall_mem_cons.1 h
    cases vs with
    | nil =>
      have hlast := ItemsText.last isGap_nil hv isGap_nil
      simpa [compactItems] using hlast
    | cons v' vs =>
      have htail := ItemsText.cons isGap_nil hv isGap_nil (ih hvs (by simp))
      simpa [compactItems] using htail

lemma membersText_compact {members : List (String × Json)} (h : ∀ m ∈ members, ValueText m.2 m.2.compactChars)
    (hne : members ≠ []) : MembersText members (compactMembers members) := by
  induction members with
  | nil => exact absurd rfl hne
  | cons m ms ih =>
    obtain ⟨key, v⟩ := m
    obtain ⟨hv, hms⟩ := List.forall_mem_cons.1 h
    have hmember : MemberText (key, v) _ := .mk isGap_nil isGap_nil isGap_nil hv
    cases ms with
    | nil =>
      have hlast := MembersText.last hmember isGap_nil
      simpa [compactMembers] using hlast
    | cons m' ms =>
      have htail := MembersText.cons hmember isGap_nil (ih hms (by simp))
      simpa [compactMembers] using htail

lemma valueText_compact (h : v.Proper) : ValueText v v.compactChars := by
  induction h with
  | null => exact .null
  | bool b => exact .bool b
  | number hn => exact .number hn
  | string s => exact .string s
  | @array items _ ih =>
    cases items with
    | nil => exact .noItems isGap_nil
    | cons v vs => exact .array (itemsText_compact ih (by simp))
  | @object members _ ih =>
    cases members with
    | nil => exact .noMembers isGap_nil
    | cons m ms => exact .object (membersText_compact ih (by simp))

lemma ofText?_compact (h : v.Proper) : Written.ofText? v.compact = some v.tree := by
  have hread := ofText?_valueText (valueText_compact h) isGap_nil isGap_nil
  rwa [List.nil_append, List.append_nil] at hread

/-! ## The value of the text -/

lemma meanings?_trees {items : List Json} (h : ∀ v ∈ items, v.tree.meaning? = some v.sortKeys) :
    Written.meanings? (trees items) = some (sortItems items) := by
  induction items with
  | nil => rfl
  | cons v vs ih =>
    obtain ⟨hv, hvs⟩ := List.forall_mem_cons.1 h
    rw [trees, Written.meanings?, hv, ih hvs, sortItems]
    rfl

lemma memberMeanings?_memberTrees {members : List (String × Json)}
    (h : ∀ m ∈ members, m.2.tree.meaning? = some m.2.sortKeys) :
    Written.memberMeanings? (memberTrees members) = some (sortValues members) := by
  induction members with
  | nil => rfl
  | cons m ms ih =>
    obtain ⟨hm, hms⟩ := List.forall_mem_cons.1 h
    rw [memberTrees, Written.memberMeanings?, hm, ih hms, text?_pieces, sortValues]
    rfl

lemma meaning?_tree (h : v.Proper) : v.tree.meaning? = some v.sortKeys := by
  induction h with
  | null | bool => rfl
  | number hn => rw [tree, Written.meaning?, nearest?_numeral hn]; rfl
  | string s => rw [tree, Written.meaning?, text?_pieces]; rfl
  | array _ ih => rw [tree, Written.meaning?, meanings?_trees ih, sortKeys]; rfl
  | object _ ih => rw [tree, Written.meaning?, memberMeanings?_memberTrees ih, sortKeys]; rfl

/-- What is written for a value means the value with sorted keys. -/
theorem meaningOf?_compact (h : v.Proper) : meaningOf? v.compact = some v.sortKeys := by
  rw [meaningOf?, ofText?_compact h]
  exact meaning?_tree h

/-! ## Pieces of texts -/

/-- What holds of every piece of a text on one line and of all that is put together from such pieces. -/
structure HoldsOfPieces (holds : List Char → Prop) : Prop where
  nil : holds []
  append {s t : List Char} : holds s → holds t → holds (s ++ t)
  word : ∀ t ∈ ["null", "true", "false", ",", ":"], holds t.toList
  number (n : Number) : holds n.chars
  quote (s : String) : holds (Json.quote s)
  brackets {t : List Char} : holds t → holds ('[' :: (t ++ [']']))
  braces {t : List Char} : holds t → holds ('\x7b' :: (t ++ ['\x7d']))

namespace HoldsOfPieces

variable {holds : List Char → Prop}

lemma items (h : HoldsOfPieces holds) {vs : List Json} (hvs : ∀ v ∈ vs, holds v.compactChars) :
    holds (compactItems vs) := by
  induction vs with
  | nil => exact h.nil
  | cons v vs ih =>
    obtain ⟨hv, hvs⟩ := List.forall_mem_cons.1 hvs
    cases vs with
    | nil => exact hv
    | cons v' vs => exact h.append hv (h.append (h.word "," (by simp)) (ih hvs))

lemma members (h : HoldsOfPieces holds) {ms : List (String × Json)} (hms : ∀ m ∈ ms, holds m.2.compactChars) :
    holds (compactMembers ms) := by
  induction ms with
  | nil => exact h.nil
  | cons m ms ih =>
    obtain ⟨key, v⟩ := m
    obtain ⟨hv, hms⟩ := List.forall_mem_cons.1 hms
    have hmember : holds (Json.quote key ++ ':' :: v.compactChars) :=
      h.append (h.quote key) (h.append (h.word ":" (by simp)) hv)
    cases ms with
    | nil => exact hmember
    | cons m' ms =>
      have hall := h.append hmember (h.append (h.word "," (by simp)) (ih hms))
      simpa [compactMembers] using hall

/-- Whatever a value holds, its text on one line is put together from such pieces. -/
lemma compactChars (h : HoldsOfPieces holds) (v : Json) : holds v.compactChars := by
  induction v using inductionOn with
  | null => exact h.word "null" (by simp)
  | bool b => cases b <;> exact h.word _ (by simp)
  | number n => exact h.number n
  | string s => exact h.quote s
  | array vs ih => exact h.brackets (h.items ih)
  | object ms ih => exact h.braces (h.members ih)

end HoldsOfPieces

/-! ## No control characters -/

def ControlFree (t : List Char) : Prop := ∀ c ∈ t, 0x20 ≤ c.toNat

@[simp] lemma controlFree_nil : ControlFree [] := fun _ h => absurd h List.not_mem_nil

@[simp] lemma controlFree_cons : ControlFree (c :: t) ↔ 0x20 ≤ c.toNat ∧ ControlFree t := List.forall_mem_cons

@[simp] lemma controlFree_append {s : List Char} : ControlFree (s ++ t) ↔ ControlFree s ∧ ControlFree t :=
  List.forall_mem_append

lemma le_toNat_of_isAlphanum (h : c.isAlphanum = true) : 0x20 ≤ c.toNat := by
  by_contra hlt
  have hnot : ∀ n < 0x20, (Char.ofNat n).isAlphanum = false := by decide
  have hc := hnot c.toNat (by omega)
  rw [Char.ofNat_toNat, h] at hc
  cases hc

lemma controlFree_chars (n : Number) : ControlFree n.chars := by
  intro c hc
  rcases isNumeralChar_iff.1 (isNumeralChar_of_mem_chars hc) with hdigit | hmark
  · exact le_toNat_of_isAlphanum (by simp [Char.isAlphanum, hdigit])
  · simp only [List.mem_cons, List.not_mem_nil, or_false] at hmark
    rcases hmark with rfl | rfl | rfl | rfl <;> decide

/-- No text of the grammar between two quotes has a control character in it. -/
lemma controlFree_of_piecesText {ps : List Piece} (h : PiecesText ps t) : ControlFree t := by
  induction h with
  | nil => exact controlFree_nil
  | plain _ _ hcontrol _ ih => exact controlFree_cons.2 ⟨not_lt.1 hcontrol, ih⟩
  | short he _ ih =>
    have hall : ∀ e ∈ ['"', '\\', '/', 'b', 'f', 'n', 'r', 't'], 0x20 ≤ e.toNat := by simp
    simp [hall _ (mem_of_shortEscape? he), ih]
  | unit hn _ ih =>
    have hdigits := fun c hc => le_toNat_of_isAlphanum (isAlphanum_of_hexUnit? hn c hc)
    simp only [List.forall_mem_cons] at hdigits
    obtain ⟨h₁, h₂, h₃, h₄, -⟩ := hdigits
    simp [h₁, h₂, h₃, h₄, ih]

/-- Whatever the value holds, its text has no control characters. -/
theorem controlFree_compactChars (v : Json) : ControlFree v.compactChars := by
  have hpieces : HoldsOfPieces ControlFree := {
    nil := controlFree_nil
    append := fun hs ht => controlFree_append.2 ⟨hs, ht⟩
    word := by simp
    number := controlFree_chars
    quote := fun s => by simp [quote, controlFree_of_piecesText (piecesText_pieces s)]
    brackets := fun ht => by simp [ht]
    braces := fun ht => by simp [ht] }
  exact hpieces.compactChars v

end UiCatalog.Json
