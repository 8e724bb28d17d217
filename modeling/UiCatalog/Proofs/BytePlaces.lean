import Mathlib.Data.List.Basic
import UiCatalog.Text.Utf8

/-!
# Places between characters

A place in bytes that no character goes over is the size of the text before it. At such places a text is cut into the
parts that it was put together from.
-/
namespace UiCatalog.Text

variable {n : Nat} {s t u : List Char}

@[simp] lemma byteSize_nil : byteSize [] = 0 := rfl

lemma byteSize_cons (c : Char) (s : List Char) : byteSize (c :: s) = c.utf8Size + byteSize s := rfl

lemma byteSize_append (s t : List Char) : byteSize (s ++ t) = byteSize s + byteSize t := by
  induction s with
  | nil => simp
  | cons c s ih => rw [List.cons_append, byteSize_cons, byteSize_cons, ih, Nat.add_assoc]

/-- A place behind a character is reached by going over its bytes. -/
lemma exists_over_bytes (c : Char) (n : Nat) :
    ∃ m, c.utf8Size + n = m + 1 ∧ c.utf8Size ≤ m + 1 ∧ m + 1 - c.utf8Size = n := by
  have hpos := c.utf8Size_pos
  exact ⟨c.utf8Size + n - 1, by omega, by omega, by omega⟩

lemma dropBytes?_cons (c : Char) (s : List Char) (n : Nat) :
    dropBytes? (c.utf8Size + n) (c :: s) = dropBytes? n s := by
  obtain ⟨m, hsucc, hle, hrest⟩ := exists_over_bytes c n
  rw [hsucc, dropBytes?, if_pos hle, hrest]

/-- The bytes of the first part are dropped first. -/
lemma dropBytes?_append (s t : List Char) (n : Nat) : dropBytes? (byteSize s + n) (s ++ t) = dropBytes? n t := by
  induction s with
  | nil => simp
  | cons c s ih => rw [byteSize_cons, Nat.add_assoc, List.cons_append, dropBytes?_cons, ih]

/-- What is cut off within the first part leaves the second one whole. -/
lemma dropBytes?_append_of_le (h : n ≤ byteSize s) (t : List Char) :
    dropBytes? n (s ++ t) = (dropBytes? n s).map (· ++ t) := by
  induction s generalizing n with
  | nil =>
    obtain rfl : n = 0 := by simpa using h
    simp [dropBytes?]
  | cons c s ih =>
    cases n with
    | zero => rfl
    | succ n =>
      rw [List.cons_append, dropBytes?, dropBytes?]
      split_ifs with hle
      · rw [byteSize_cons] at h
        exact ih (by omega)
      · rfl

lemma takeBytes?_cons (c : Char) (s : List Char) (n : Nat) :
    takeBytes? (c.utf8Size + n) (c :: s) = (takeBytes? n s).map (c :: ·) := by
  obtain ⟨m, hsucc, hle, hrest⟩ := exists_over_bytes c n
  rw [hsucc, takeBytes?, if_pos hle, hrest]

/-- The bytes of the first part are its own characters, and what is taken behind them follows these. -/
lemma takeBytes?_append_add (s t : List Char) (n : Nat) :
    takeBytes? (byteSize s + n) (s ++ t) = (takeBytes? n t).map (s ++ ·) := by
  induction s with
  | nil => simp
  | cons c s ih =>
    rw [byteSize_cons, Nat.add_assoc, List.cons_append, takeBytes?_cons, ih, Option.map_map]
    rfl

lemma takeBytes?_append (s t : List Char) : takeBytes? (byteSize s) (s ++ t) = some s := by
  have htake := takeBytes?_append_add s t 0
  simpa [takeBytes?] using htake

lemma slice?_append (s t : List Char) (n : Nat) : slice? (byteSize s) (byteSize s + n) (s ++ t) = takeBytes? n t := by
  have hdrop := dropBytes?_append s t 0
  rw [Nat.add_zero] at hdrop
  rw [slice?, hdrop, Nat.add_sub_cancel_left]
  simp [dropBytes?]

/-- What is taken starts the text and has the size that was asked for. -/
lemma exists_of_takeBytes? (h : takeBytes? n s = some t) : (∃ u, s = t ++ u) ∧ byteSize t = n := by
  induction s generalizing n t with
  | nil =>
    cases n with
    | zero => exact ⟨⟨[], by rw [← Option.some.inj h]; rfl⟩, by rw [← Option.some.inj h]; rfl⟩
    | succ n => cases h
  | cons c s ih =>
    cases n with
    | zero => exact ⟨⟨c :: s, by rw [← Option.some.inj h]; rfl⟩, by rw [← Option.some.inj h]; rfl⟩
    | succ n =>
      rw [takeBytes?] at h
      split_ifs at h with hle
      obtain ⟨t, ht, rfl⟩ := Option.map_eq_some_iff.1 h
      obtain ⟨⟨u, hu⟩, hsize⟩ := ih ht
      refine ⟨⟨u, by rw [hu, List.cons_append]⟩, ?_⟩
      rw [byteSize_cons, hsize]
      omega

lemma suffix_of_dropBytes? (h : dropBytes? n s = some t) : t <:+ s := by
  induction s generalizing n with
  | nil =>
    cases n with
    | zero => exact Option.some.inj h ▸ List.suffix_refl _
    | succ n => cases h
  | cons c s ih =>
    cases n with
    | zero => exact Option.some.inj h ▸ List.suffix_refl _
    | succ n =>
      rw [dropBytes?] at h
      split_ifs at h
      exact (ih h).trans (List.suffix_cons c s)

end UiCatalog.Text
