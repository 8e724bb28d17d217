import Mathlib
import UiCatalog.Proofs.ByteScan
import UiCatalog.Proofs.BracketDepth

/-!
# Slices of bytes

What the scanner finds in the bytes of a text is where the text is cut. A cut fails when it runs backwards, ends behind
the text or breaks a character. None does: whatever the text, brackets, lists and entries are cut out of its bytes as
they are out of its characters.
-/
namespace UiCatalog.Code

open Text

/-- A place at which the bytes break no character. -/
def isBoundary (bytes : List UInt8) (i : Nat) : Bool :=
  match bytes[i]? with
  | some b => decide b.IsUTF8FirstByte
  | none => i == bytes.length

/-- A cut that cannot be made. -/
structure BadCut where
  start : Nat
  stop : Nat
  deriving DecidableEq, Repr

/-- The text from one place in its bytes up to another one. -/
def cut (s : List Char) (start stop : Nat) : Except BadCut (List Char) :=
  if start ≤ stop ∧ stop ≤ (bytesOf s).length ∧ isBoundary (bytesOf s) start ∧ isBoundary (bytesOf s) stop then
    .ok ((slice? start stop s).getD [])
  else .error ⟨start, stop⟩

/-- The first of the places at which the depth is zero and what is wanted stands. -/
def firstPlace? (wanted : Char → Bool) : Int → List (Nat × Char) → Option Nat
  | _, [] => none
  | depth, (i, c) :: rest =>
    let depth := depth + depthStep c
    if depth = 0 ∧ wanted c then some i else firstPlace? wanted depth rest

/-- No character outside of ASCII ends the search: none is wanted, or the search is for a depth and is not there yet. -/
def EndsAtAscii (wanted : Char → Bool) (depth : Int) : Prop :=
  (∀ c, 0x80 ≤ c.toNat → wanted c = false) ∨ depth ≠ 0 ∧ ∀ c, wanted c = true

namespace Bytes

/-- The place of the bracket that closes the one at place `start`. -/
def closing? (s : List Char) (start : Nat) : Option Nat :=
  (cut s start (bytesOf s).length).toOption.bind fun tail =>
    match byteAt? (bytesOf tail) 0 with
    | some o =>
      if depthStep o = 1 then (firstPlace? (fun _ => true) 0 (visits (bytesOf tail) 0)).map (start + ·) else none
    | none => none

/-- The text between the bracket at place `start` and the one that closes it. -/
def body? (s : List Char) (start : Nat) : Option (List Char) :=
  (closing? s start).bind fun stop => (cut s (start + 1) stop).toOption

/-- The pieces between the separators at depth zero, from place `start` on. -/
def pieces (sep : Char) (s : List Char) : Int → Nat → List (Nat × Char) → Except BadCut (List (List Char))
  | _, start, [] => do
    let piece ← cut s start (bytesOf s).length
    return [piece]
  | depth, start, (i, c) :: rest =>
    let depth := depth + depthStep c
    if depth = 0 ∧ c = sep then do
      let piece ← cut s start i
      let more ← pieces sep s depth (i + 1) rest
      return piece :: more
    else pieces sep s depth start rest

/-- The pieces between the separators outside all brackets, without the blank ones. -/
def split (sep : Char) (s : List Char) : Except BadCut (List (List Char)) := do
  let found ← pieces sep s 0 0 (visits (bytesOf s) 0)
  return found.filter fun piece => !isBlankText piece

/-- The text inside one layer of quotes of one kind. -/
def unquote? (s : List Char) : Except BadCut (Option (List Char)) :=
  match trim s with
  | [] => .ok none
  | quote :: rest =>
    let t := quote :: rest
    if !isQuote quote || (bytesOf t).length < 2 || t.getLast? != some quote then .ok none
    else (cut t 1 ((bytesOf t).length - 1)).map some

/-- The parts of an entry before and behind its first colon outside all brackets. -/
def keyAndValue (entry : List Char) : Except BadCut (List Char × List Char) :=
  match firstPlace? (· == ':') 0 (visits (bytesOf entry) 0) with
  | some i => do
    let key ← cut entry 0 i
    let value ← cut entry (i + 1) (bytesOf entry).length
    return (key, trim value)
  | none => .ok (entry, [])

/-- One entry of an object literal: its key without quotes and its value. -/
def readEntry (piece : List Char) : Except BadCut (Option (List Char × List Char)) :=
  let entry := trim piece
  if isSpread entry then .ok none
  else do
    let (key, value) ← keyAndValue entry
    let key := trim key
    let key := (← unquote? key).getD key
    return if key.isEmpty then none else some (key, value)

/-- The entries of the body of an object literal, in order. -/
def entries (body : List Char) : Except BadCut (List (List Char × List Char)) := do
  let read ← (← split ',' body).mapM readEntry
  return read.reduceOption

end Bytes

variable {bytes : List UInt8} {i n start stop : Nat} {depth : Int} {c sep : Char} {s t : List Char}
  {places : List (Nat × Char)} {wanted : Char → Bool} {marked : List (Char × Bool)}

/-! ## Cuts -/

lemma isBoundary_bytesOf (s : List Char) (i : Nat) : isBoundary (bytesOf s) i = (takeBytes? i s).isSome := by
  induction s generalizing i with
  | nil => cases i <;> simp [isBoundary, takeBytes?]
  | cons c s ih =>
    have hlen : (String.utf8EncodeChar c).length = c.utf8Size := String.length_utf8EncodeChar c
    rw [bytesOf_cons]
    by_cases hi : i < c.utf8Size
    · -- the bytes of a character are first bytes only where it starts
      have hlt : i < (String.utf8EncodeChar c).length := hlen ▸ hi
      have hread : (String.utf8EncodeChar c ++ bytesOf s)[i]? = some (String.utf8EncodeChar c)[i] := by
        rw [List.getElem?_append_left hlt, List.getElem?_eq_getElem]
      have hnot : ¬ c.utf8Size ≤ i := by omega
      simp only [isBoundary, hread, UInt8.isUTF8FirstByte_getElem_utf8EncodeChar]
      cases i with
      | zero => rfl
      | succ i => simp [takeBytes?, hnot]
    · obtain ⟨k, rfl⟩ := Nat.exists_eq_add_of_le (Nat.not_lt.1 hi)
      have hread : (String.utf8EncodeChar c ++ bytesOf s)[c.utf8Size + k]? = (bytesOf s)[k]? := by
        rw [List.getElem?_append_right (by omega), hlen, Nat.add_sub_cancel_left]
      rw [takeBytes?_cons, Option.isSome_map, ← ih, isBoundary, isBoundary, hread, List.length_append, hlen]
      cases (bytesOf s)[k]? <;> simp

/-- A cut is made just where it leaves whole texts before and behind it. -/
lemma cut_eq_ok_iff : cut s start stop = .ok t ↔
    ∃ before behind, s = before ++ (t ++ behind) ∧ byteSize before = start ∧ byteSize (before ++ t) = stop := by
  constructor
  · intro h
    rw [cut, isBoundary_bytesOf, isBoundary_bytesOf] at h
    split_ifs at h with hends
    obtain ⟨hle, -, hstart, hstop⟩ := hends
    obtain ⟨before, hbefore⟩ := Option.isSome_iff_exists.1 hstart
    obtain ⟨⟨u, rfl⟩, rfl⟩ := exists_of_takeBytes? hbefore
    obtain ⟨n, rfl⟩ := Nat.exists_eq_add_of_le hle
    rw [takeBytes?_append_add, Option.isSome_map] at hstop
    obtain ⟨piece, hpiece⟩ := Option.isSome_iff_exists.1 hstop
    obtain ⟨⟨behind, rfl⟩, rfl⟩ := exists_of_takeBytes? hpiece
    rw [slice?_append, hpiece] at h
    obtain rfl := Except.ok.inj h
    exact ⟨before, behind, rfl, rfl, byteSize_append before piece⟩
  · rintro ⟨before, behind, rfl, rfl, rfl⟩
    have hends : (takeBytes? (byteSize (before ++ t)) (before ++ (t ++ behind))).isSome = true := by
      rw [← List.append_assoc, takeBytes?_append]
      rfl
    rw [cut, isBoundary_bytesOf, isBoundary_bytesOf, hends, takeBytes?_append, length_bytesOf, byteSize_append before t,
      slice?_append, takeBytes?_append, if_pos]
    · rfl
    · simp [byteSize_append]

/-- The text between two others is cut out at its own ends. -/
lemma cut_append (s t u : List Char) : cut (s ++ (t ++ u)) (byteSize s) (byteSize (s ++ t)) = .ok t :=
  cut_eq_ok_iff.2 ⟨s, u, rfl, rfl, rfl⟩

lemma cut_head (s t : List Char) : cut (s ++ t) 0 (byteSize s) = .ok s := cut_append [] s t

lemma cut_tail (s t : List Char) : cut (s ++ t) (byteSize s) (bytesOf (s ++ t)).length = .ok t := by
  have hcut := cut_append s t []
  rw [List.append_nil] at hcut
  rwa [length_bytesOf]

lemma cut_of_takeBytes?_eq_none (h : takeBytes? start s = none) (stop : Nat) :
    cut s start stop = .error ⟨start, stop⟩ := by
  rw [cut, isBoundary_bytesOf s start, h]
  simp

/-! ## Places of code -/

lemma depthStep_of_not_ascii (hc : 0x80 ≤ c.toNat) : depthStep c = 0 := by
  have hne {d : Char} (hd : d.toNat < 0x80) : c ≠ d := by
    rintro rfl
    omega
  simp [depthStep, opensBracket, closesBracket, hne]

lemma ascii_of_opens (ho : opensBracket c = true) : c.toNat < 0x80 := by
  by_contra hout
  have hstep := depthStep_of_not_ascii (Nat.not_lt.1 hout)
  rw [depthStep_of_opens ho] at hstep
  exact absurd hstep (by decide)

lemma opens_of_depthStep (h : depthStep c = 1) : opensBracket c = true := by
  unfold depthStep at h
  split_ifs at h with ho
  · exact ho
  · exact absurd h (by decide)

lemma asciiOnly_cons_of_ascii (hc : c.toNat < 0x80) (i : Nat) (places : List (Nat × Char)) :
    asciiOnly ((i, c) :: places) = (i, c) :: asciiOnly places := List.filter_cons_of_pos (by simpa using hc)

lemma asciiOnly_cons_of_not_ascii (hc : 0x80 ≤ c.toNat) (i : Nat) (places : List (Nat × Char)) :
    asciiOnly ((i, c) :: places) = asciiOnly places := List.filter_cons_of_neg (by simpa using hc)

lemma firstPlace?_asciiOnly (h : EndsAtAscii wanted depth) :
    firstPlace? wanted depth (asciiOnly places) = firstPlace? wanted depth places := by
  induction places generalizing depth with
  | nil => rfl
  | cons place places ih =>
    obtain ⟨i, c⟩ := place
    by_cases hc : c.toNat < 0x80
    · rw [asciiOnly_cons_of_ascii hc, firstPlace?, firstPlace?]
      split_ifs with hfound
      · rfl
      · exact ih (h.imp_right fun ⟨_, hall⟩ => ⟨fun hzero => hfound ⟨hzero, hall c⟩, hall⟩)
    · have hout : 0x80 ≤ c.toNat := Nat.not_lt.1 hc
      have hnot : ¬ (depth = 0 ∧ wanted c = true) := by
        rcases h with hnone | ⟨hzero, -⟩
        · simp [hnone c hout]
        · exact fun hfound => hzero hfound.1
      rw [asciiOnly_cons_of_not_ascii hout, firstPlace?, depthStep_of_not_ascii hout, Int.add_zero, if_neg hnot, ih h]

/-- Such a search finds the same place in the bytes as in the characters. -/
lemma firstPlace?_visits (region : Region) (hr : region.Opened) (hs : bytes.drop i = bytesOf s)
    (h : EndsAtAscii wanted depth) :
    firstPlace? wanted depth (visits bytes (region.resume bytes i)) =
      firstPlace? wanted depth (codePlaces i (region.mark s)) := by
  rw [← firstPlace?_asciiOnly h, asciiOnly_visits region hr hs, firstPlace?_asciiOnly h]

lemma firstPlace?_codePlaces_cons (m : Char × Bool) (marked : List (Char × Bool)) :
    firstPlace? wanted depth (codePlaces i (m :: marked)) =
      if depth + labelStep m = 0 ∧ m.2 = true ∧ wanted m.1 = true then some i
      else firstPlace? wanted (depth + labelStep m) (codePlaces (i + m.1.utf8Size) marked) := by
  obtain ⟨c, _ | _⟩ := m
  · simp [codePlaces, labelStep]
  · simp [codePlaces, labelStep, firstPlace?]

/-- What counts the characters up to the first one that is wanted finds the same place. -/
lemma firstPlace?_codePlaces (offset? : Int → List (Char × Bool) → Option Nat) (good : Int → Prop)
    (hnil : ∀ depth, offset? depth [] = none)
    (hcons : ∀ depth m ms, good depth → offset? depth (m :: ms) =
      if depth + labelStep m = 0 ∧ m.2 = true ∧ wanted m.1 = true then some 0
      else (offset? (depth + labelStep m) ms).map (· + 1))
    (hkeep : ∀ depth m, good depth → ¬ (depth + labelStep m = 0 ∧ m.2 = true ∧ wanted m.1 = true) →
      good (depth + labelStep m))
    (hd : good depth) :
    firstPlace? wanted depth (codePlaces i marked) =
      (offset? depth marked).map fun n => i + byteSize ((marked.map Prod.fst).take n) := by
  induction marked generalizing depth i with
  | nil =>
    rw [hnil]
    rfl
  | cons m ms ih =>
    rw [firstPlace?_codePlaces_cons, hcons depth m ms hd]
    split_ifs with hfound
    · simp
    · rw [ih (hkeep depth m hd hfound), Option.map_map]
      congr 1
      funext n
      simp only [Function.comp_apply, List.map_cons, List.take_succ_cons, byteSize_cons]
      omega

lemma firstPlace?_closing (hd : 0 < depth) : firstPlace? (fun _ => true) depth (codePlaces i marked) =
    (closingOffset? depth.toNat marked).map fun n => i + byteSize ((marked.map Prod.fst).take n) := by
  have hcode {depth : Int} {m : Char × Bool} (hd : 0 < depth) : depth + labelStep m = 0 → m.2 = true := by
    intro hzero
    by_contra hnot
    rw [labelStep, if_neg hnot] at hzero
    omega
  refine firstPlace?_codePlaces (fun depth => closingOffset? depth.toNat) (0 < ·) (fun _ => rfl)
    (fun depth m ms hd => ?_) (fun depth m hd hnot => ?_) hd
  · have hcast : (depth.toNat : Int) = depth := Int.toNat_of_nonneg hd.le
    rw [closingOffset?_cons (by omega), hcast]
    simp [and_iff_left_of_imp (hcode hd)]
  · have hstep := labelStep_ge m
    have hzero : depth + labelStep m ≠ 0 := fun hzero => hnot ⟨hzero, hcode hd hzero, rfl⟩
    omega

lemma firstPlace?_colon : firstPlace? (· == ':') depth (codePlaces i marked) =
    (colonOffset? depth marked).map fun n => i + byteSize ((marked.map Prod.fst).take n) :=
  firstPlace?_codePlaces colonOffset? (fun _ => True) (fun _ => rfl) (fun _ m ms _ => colonOffset?_cons m ms)
    (fun _ _ _ _ => trivial) trivial

namespace Bytes

/-! ## Brackets -/

lemma closing?_append_cons (ho : opensBracket c = true) (s t : List Char) :
    closing? (s ++ c :: t) (byteSize s) =
      (closingOffset? 1 (mark t)).map fun n => byteSize (s ++ c :: t.take n) := by
  have hascii := ascii_of_opens ho
  obtain ⟨hquote, hslash⟩ := not_mark_of_bracket (.inl ho)
  have hbytes : bytesOf (c :: t) = c.toUInt8 :: bytesOf t := by
    rw [bytesOf_cons, utf8EncodeChar_of_ascii hascii, List.singleton_append]
  have hfirst : byteAt? (bytesOf (c :: t)) 0 = some c := by
    rw [hbytes, byteAt?, List.getElem?_cons_zero, Option.map_some, ofUInt8_toUInt8 hascii]
  have hvisits : visits (bytesOf (c :: t)) 0 = (0, c) :: visits (bytesOf (c :: t)) 1 := by
    rw [visits_of_lt (by rw [hbytes]; exact Nat.succ_pos _) hfirst]
    simp [hquote, hslash]
  have hsearch : firstPlace? (fun _ => true) 1 (visits (bytesOf (c :: t)) 1) =
      firstPlace? (fun _ => true) 1 (codePlaces 1 (mark t)) :=
    firstPlace?_visits .code trivial (by rw [hbytes]; rfl) (.inr ⟨by decide, fun _ => rfl⟩)
  rw [closing?, cut_tail, Except.toOption, Option.bind_some, hfirst, hvisits]
  dsimp only
  rw [if_pos (depthStep_of_opens ho), firstPlace?, depthStep_of_opens ho, if_neg (by decide), zero_add, hsearch,
    firstPlace?_closing Int.one_pos, map_fst_mark, Option.map_map]
  congr 1
  funext n
  rw [Function.comp_apply, byteSize_append, byteSize_cons, utf8Size_of_ascii hascii]

lemma closing?_append_of_not_opens (ht : ∀ c ∈ t.head?, opensBracket c = false) (s : List Char) :
    closing? (s ++ t) (byteSize s) = none := by
  rw [closing?, cut_tail, Except.toOption, Option.bind_some]
  cases t with
  | nil =>
    rw [bytesOf_nil]
    rfl
  | cons c t =>
    have hdrop : (bytesOf (c :: t)).drop 0 = String.utf8EncodeChar c ++ bytesOf t := bytesOf_cons c t
    have hstands := stands_of_drop hdrop
    obtain ⟨o, ho⟩ : ∃ o, byteAt? (bytesOf (c :: t)) 0 = some o := ⟨_, byteAt?_of_lt (hstands.lt.trans_le hstands.le)⟩
    have hstep : depthStep o ≠ 1 := by
      -- the brackets are ASCII, and a byte of ASCII is the character itself
      intro hone
      have hopens := opens_of_depthStep hone
      obtain rfl := (hstands.first o (ascii_of_opens hopens)).1 ho
      exact absurd hopens (by simp [ht c rfl])
    rw [ho]
    exact if_neg hstep

lemma closingIndex?_append_of_not_opens (ht : ∀ c ∈ t.head?, opensBracket c = false) (s : List Char) :
    closingIndex? (s ++ t) s.length = none := by
  rw [closingIndex?, List.drop_left]
  cases t with
  | nil => rfl
  | cons c t => simp [ht c rfl]

/-- At any place a bracket opens, or neither in the bytes nor in the text one is found to be closed. -/
lemma opens_or_none (s : List Char) (start : Nat) :
    (∃ before c t, s = before ++ c :: t ∧ byteSize before = start ∧ opensBracket c = true) ∨
    (closing? s start = none ∧ ∀ before, takeBytes? start s = some before → closingIndex? s before.length = none) := by
  cases hcut : takeBytes? start s with
  | none =>
    refine .inr ⟨?_, fun _ hsome => by cases hsome⟩
    rw [closing?, cut_of_takeBytes?_eq_none hcut]
    rfl
  | some before =>
    obtain ⟨⟨t, rfl⟩, hsize⟩ := exists_of_takeBytes? hcut
    by_cases ht : ∀ c ∈ t.head?, opensBracket c = false
    · refine .inr ⟨hsize ▸ closing?_append_of_not_opens ht before, fun before' hsome => ?_⟩
      obtain rfl := Option.some.inj hsome
      exact closingIndex?_append_of_not_opens ht before
    · cases t with
      | nil => exact absurd (fun c hc => by cases hc) ht
      | cons c t => exact .inl ⟨before, c, t, rfl, hsize, by simpa using ht⟩

lemma closing?_eq (s : List Char) (start : Nat) : closing? s start = (takeBytes? start s).bind fun before =>
    (closingIndex? s before.length).map fun stop => byteSize (s.take stop) := by
  rcases opens_or_none s start with ⟨before, c, t, rfl, rfl, ho⟩ | ⟨hclosing, hindex⟩
  · rw [closing?_append_cons ho, takeBytes?_append, Option.bind_some, closingIndex?_cons List.drop_left ho,
      Option.map_map]
    congr 1
    funext n
    rw [Function.comp_apply, Nat.add_assoc, List.take_length_add_append, Nat.add_comm 1, List.take_succ_cons]
  · rw [hclosing]
    cases hcut : takeBytes? start s with
    | none => rfl
    | some before => rw [Option.bind_some, hindex before hcut, Option.map_none]

/-- What stands in a bracket is cut out of the bytes between the bracket and the one that closes it. -/
lemma cut_body (ho : opensBracket c = true) (s t : List Char) (n : Nat) :
    cut (s ++ c :: t) (byteSize s + 1) (byteSize (s ++ c :: t.take n)) = .ok (t.take n) := by
  have hcut := cut_append (s ++ [c]) (t.take n) (t.drop n)
  have hsize : byteSize (s ++ [c]) = byteSize s + 1 := by
    rw [byteSize_append, byteSize_cons, utf8Size_of_ascii (ascii_of_opens ho), byteSize_nil]
  rwa [hsize, List.take_append_drop, List.append_assoc, List.append_assoc, List.singleton_append,
    List.singleton_append] at hcut

lemma exists_body_of_closing? (h : closing? s start = some stop) :
    ∃ body, cut s (start + 1) stop = .ok body ∧ body? s start = some body := by
  rcases opens_or_none s start with ⟨before, c, t, rfl, rfl, ho⟩ | ⟨hclosing, -⟩
  · have hsome := h
    rw [closing?_append_cons ho] at hsome
    obtain ⟨n, -, rfl⟩ := Option.map_eq_some_iff.1 hsome
    exact ⟨t.take n, cut_body ho before t n, by rw [body?, h, Option.bind_some, cut_body ho]; rfl⟩
  · rw [hclosing] at h
    cases h

lemma body?_eq (s : List Char) (start : Nat) :
    body? s start = (takeBytes? start s).bind fun before => bracketBody? s before.length := by
  rcases opens_or_none s start with ⟨before, c, t, rfl, rfl, ho⟩ | ⟨hclosing, hindex⟩
  · rw [body?, closing?_append_cons ho, takeBytes?_append, Option.bind_some, bracketBody?,
      closingIndex?_cons List.drop_left ho, Option.map_map]
    cases closingOffset? 1 (mark t) with
    | none => rfl
    | some n =>
      rw [Option.map_some, Option.bind_some, cut_body ho, Option.map_some, Function.comp_apply, Nat.add_sub_cancel_left,
        List.drop_length_add_append]
      rfl
  · rw [body?, hclosing]
    cases hcut : takeBytes? start s with
    | none => rfl
    | some before =>
      rw [Option.bind_some, bracketBody?, hindex before hcut]
      rfl

/-! ## Lists -/

lemma pieces_asciiOnly (hsep : sep.toNat < 0x80) :
    pieces sep s depth start (asciiOnly places) = pieces sep s depth start places := by
  induction places generalizing depth start with
  | nil => rfl
  | cons place places ih =>
    obtain ⟨i, c⟩ := place
    by_cases hc : c.toNat < 0x80
    · rw [asciiOnly_cons_of_ascii hc, pieces, pieces, ih, ih]
    · have hout : 0x80 ≤ c.toNat := Nat.not_lt.1 hc
      have hne : c ≠ sep := by
        rintro rfl
        exact hc hsep
      rw [asciiOnly_cons_of_not_ascii hout, pieces, depthStep_of_not_ascii hout, Int.add_zero, ih]
      exact (if_neg fun hsplit => hne hsplit.2).symm

lemma pieces_codePlaces_cons (m : Char × Bool) (ms : List (Char × Bool)) :
    pieces sep s depth start (codePlaces i (m :: ms)) =
      if depth + labelStep m = 0 ∧ m.2 = true ∧ m.1 = sep then do
        let piece ← cut s start i
        let more ← pieces sep s (depth + labelStep m) (i + 1) (codePlaces (i + m.1.utf8Size) ms)
        return piece :: more
      else pieces sep s (depth + labelStep m) start (codePlaces (i + m.1.utf8Size) ms) := by
  obtain ⟨c, _ | _⟩ := m <;> simp [codePlaces, labelStep, pieces]

/-- The text that is done has been cut, and the current piece goes on. -/
lemma pieces_codePlaces (hsep : sep.toNat < 0x80) (depth : Int) (done current : List Char)
    (hs : s = done ++ (current ++ marked.map Prod.fst)) :
    pieces sep s depth (byteSize done) (codePlaces (byteSize (done ++ current)) marked) =
      .ok (prepend current (splitMarked sep depth marked)) := by
  induction marked generalizing done current depth with
  | nil =>
    rw [List.map_nil, List.append_nil] at hs
    rw [codePlaces, pieces, hs, cut_tail, splitMarked, prepend, List.append_nil]
    rfl
  | cons m ms ih =>
    obtain ⟨c, isCode⟩ := m
    have hnext (t : List Char) : byteSize (t ++ [c]) = byteSize t + c.utf8Size := by
      rw [byteSize_append, byteSize_cons, byteSize_nil, Nat.add_zero]
    have hpieces := splitMarked_ne_nil sep (depth + labelStep (c, isCode)) ms
    rw [List.map_cons] at hs
    rw [pieces_codePlaces_cons, splitMarked_cons_labelStep]
    split_ifs with hsplit
    · -- a separator is one byte, behind which the next piece starts
      obtain ⟨-, -, rfl⟩ := hsplit
      have hrest := ih (depth + labelStep (c, isCode)) (done ++ (current ++ [c])) [] (by simpa using hs)
      rw [List.append_nil, ← List.append_assoc, hnext, utf8Size_of_ascii hsep, prepend_nil hpieces] at hrest
      rw [hs, cut_append, ← hs, utf8Size_of_ascii hsep, hrest, prepend, List.append_nil]
      rfl
    · have hrest := ih (depth + labelStep (c, isCode)) done (current ++ [c]) (by simpa using hs)
      rw [← List.append_assoc, hnext] at hrest
      rw [hrest, prepend_prepend _ _ hpieces]

lemma split_eq (hsep : sep.toNat < 0x80) (s : List Char) : split sep s = .ok (splitTopLevel sep s) := by
  have hs : s = [] ++ ([] ++ (mark s).map Prod.fst) := by
    rw [map_fst_mark]
    rfl
  have hpieces := pieces_codePlaces hsep 0 [] [] hs
  have hvisits : asciiOnly (visits (bytesOf s) 0) = asciiOnly (codePlaces 0 (mark s)) :=
    asciiOnly_visits .code trivial rfl
  rw [List.nil_append, byteSize_nil, prepend_nil (splitMarked_ne_nil _ _ _)] at hpieces
  rw [split, ← pieces_asciiOnly hsep, hvisits, pieces_asciiOnly hsep, hpieces]
  rfl

/-! ## Entries -/

/-- The closing quote of a text in quotes is one byte, and so is the opening one. -/
lemma cut_unquoted (hc : c.toNat < 0x80) (inside : List Char) :
    cut (c :: (inside ++ [c])) 1 ((bytesOf (c :: (inside ++ [c]))).length - 1) = .ok inside := by
  have hone : byteSize [c] = 1 := by rw [byteSize_cons, utf8Size_of_ascii hc, byteSize_nil]
  have hcut := cut_append [c] inside [c]
  have hstop : (bytesOf (c :: (inside ++ [c]))).length - 1 = byteSize ([c] ++ inside) := by
    rw [length_bytesOf, ← List.singleton_append, ← List.append_assoc, byteSize_append _ [c], hone, Nat.add_sub_cancel]
  rwa [hone, List.singleton_append, ← hstop] at hcut

lemma unquote?_eq (s : List Char) : unquote? s = .ok (Code.unquote? s) := by
  rw [unquote?, Code.unquote?]
  cases trim s with
  | nil => rfl
  | cons quote rest =>
    dsimp only
    by_cases hquote : isQuote quote = true
    · have hascii := ascii_of_isQuote hquote
      rcases List.eq_nil_or_concat rest with rfl | ⟨inside, c, rfl⟩
      · simp [length_bytesOf, byteSize_cons, utf8Size_of_ascii hascii]
      · rw [List.concat_eq_append]
        have hlast : (quote :: (inside ++ [c])).getLast? = some c := by rw [← List.cons_append, List.getLast?_concat]
        rw [hlast]
        by_cases hc : c = quote
        · subst hc
          have hlong : ¬ (bytesOf (c :: (inside ++ [c]))).length < 2 := by
            rw [length_bytesOf, byteSize_cons, byteSize_append, byteSize_cons, utf8Size_of_ascii hascii]
            omega
          rw [cut_unquoted hascii]
          simp [hquote, hlong, Except.map]
        · simp [hc]
    · simp [hquote]

lemma keyAndValue_eq (entry : List Char) : keyAndValue entry = .ok (match colonOffset? 0 (mark entry) with
    | some n => (entry.take n, trim (entry.drop (n + 1)))
    | none => (entry, [])) := by
  have hplace : firstPlace? (· == ':') 0 (visits (bytesOf entry) 0) =
      (colonOffset? 0 (mark entry)).map fun n => byteSize (entry.take n) := by
    have hout (c : Char) (hc : 0x80 ≤ c.toNat) : (c == ':') = false := by
      rw [beq_eq_false_iff_ne]
      rintro rfl
      exact absurd hc (by decide)
    have hsearch : firstPlace? (· == ':') 0 (visits (bytesOf entry) 0) =
        firstPlace? (· == ':') 0 (codePlaces 0 (mark entry)) :=
      firstPlace?_visits .code trivial rfl (.inl hout)
    rw [hsearch, firstPlace?_colon, map_fst_mark]
    simp only [Nat.zero_add]
  rw [keyAndValue, hplace]
  cases hcolon : colonOffset? 0 (mark entry) with
  | none => rfl
  | some n =>
    have hget := getElem?_of_colonOffset? hcolon
    rw [map_fst_mark] at hget
    obtain ⟨hn, hchar⟩ := List.getElem?_eq_some_iff.1 hget
    have hentry : entry.take n ++ ':' :: entry.drop (n + 1) = entry := by
      rw [← hchar, ← List.drop_eq_getElem_cons hn, List.take_append_drop]
    have hkey := cut_head (entry.take n) (':' :: entry.drop (n + 1))
    have hvalue := cut_tail (entry.take n ++ [':']) (entry.drop (n + 1))
    have hsize : byteSize (entry.take n ++ [':']) = byteSize (entry.take n) + 1 := by
      rw [byteSize_append]
      rfl
    rw [List.append_assoc, List.singleton_append, hentry, hsize] at hvalue
    rw [hentry] at hkey
    rw [Option.map_some]
    dsimp only
    rw [hkey, hvalue]
    rfl

lemma readEntry_eq (piece : List Char) : readEntry piece = .ok (Code.readEntry piece) := by
  rw [readEntry, Code.readEntry]
  dsimp only
  by_cases hspread : isSpread (trim piece) = true
  · rw [if_pos hspread, if_pos hspread]
  · rw [if_neg hspread, if_neg hspread, keyAndValue_eq]
    cases hcolon : colonOffset? 0 (mark (trim piece)) with
    | none =>
      change (unquote? (trim (trim piece)) >>= _) = _
      rw [unquote?_eq, trim_trim]
      rfl
    | some n =>
      change (unquote? (trim ((trim piece).take n)) >>= _) = _
      rw [unquote?_eq]
      rfl

lemma entries_eq (body : List Char) : entries body = .ok (objectEntries body) := by
  have hread : readEntry = fun piece => pure (Code.readEntry piece) := funext readEntry_eq
  have hall : (splitTopLevel ',' body).mapM readEntry = .ok ((splitTopLevel ',' body).map Code.readEntry) := by
    rw [hread, List.mapM_pure]
    rfl
  have hentries : entries body = .ok ((splitTopLevel ',' body).map Code.readEntry).reduceOption := by
    rw [entries, split_eq (by decide)]
    change ((splitTopLevel ',' body).mapM readEntry >>= _) = _
    rw [hall]
    rfl
  rw [hentries, objectEntries, List.reduceOption, List.filterMap_map]
  rfl

end Bytes

/--
Scanning bytes is safe on any text. What the scanner sees of ASCII outside of strings and comments stands where the
characters do, and wherever a bracket, a list, an entry or a quoted text is cut out, the cut can be made: what comes out
is what the characters give.
-/
theorem scanning_bytes_safe (s : List Char) :
    asciiOnly (visits (bytesOf s) 0) = asciiOnly (codePlaces 0 (mark s)) ∧
    (∀ start, Bytes.closing? s start = (takeBytes? start s).bind fun before =>
      (closingIndex? s before.length).map fun stop => byteSize (s.take stop)) ∧
    (∀ start stop, Bytes.closing? s start = some stop →
      ∃ body, cut s (start + 1) stop = .ok body ∧ Bytes.body? s start = some body) ∧
    (∀ start, Bytes.body? s start = (takeBytes? start s).bind fun before => bracketBody? s before.length) ∧
    (∀ sep, sep.toNat < 0x80 → Bytes.split sep s = .ok (splitTopLevel sep s)) ∧
    Bytes.entries s = .ok (objectEntries s) ∧
    Bytes.unquote? s = .ok (unquote? s) :=
  ⟨asciiOnly_visits .code trivial rfl, Bytes.closing?_eq s, fun _ _ => Bytes.exists_body_of_closing?,
    Bytes.body?_eq s, fun _ hsep => Bytes.split_eq hsep s, Bytes.entries_eq s, Bytes.unquote?_eq s⟩

/-- Code with letters of two bytes: in a name, behind a backslash in a string, and in a string that is not closed. -/
def accentedCode : List Char := "\u00e9: (\"\\\u00e9)\"), \u00df: '\u00fc".toList

theorem scanning_bytes_safe_of_accents :
    asciiOnly (visits (bytesOf accentedCode) 0) =
      [(2, ':'), (3, ' '), (4, '('), (11, ')'), (12, ','), (13, ' '), (16, ':'), (17, ' ')] ∧
    Bytes.closing? accentedCode 1 = none ∧
    Bytes.closing? accentedCode 4 = some 11 ∧
    (∃ body, cut accentedCode 5 11 = .ok body ∧ Bytes.body? accentedCode 4 = some body) ∧
    Bytes.body? accentedCode 4 = some "\"\\\u00e9)\"".toList ∧
    ','.toNat < 0x80 ∧
    Bytes.split ',' accentedCode = .ok ["\u00e9: (\"\\\u00e9)\")".toList, " \u00df: '\u00fc".toList] ∧
    Bytes.entries accentedCode =
      .ok [(['\u00e9'], "(\"\\\u00e9)\")".toList), (['\u00df'], "'\u00fc".toList)] ∧
    Bytes.unquote? accentedCode = .ok none := by
  obtain ⟨hvisits, hclosing, hcut, hbody, hsplit, hentries, hunquote⟩ := scanning_bytes_safe accentedCode
  have hclosed : Bytes.closing? accentedCode 4 = some 11 := by
    rw [hclosing]
    decide
  refine ⟨?_, ?_, hclosed, hcut 4 11 hclosed, ?_, by decide, ?_, ?_, ?_⟩
  · rw [hvisits]
    decide
  · rw [hclosing]
    decide
  · rw [hbody]
    decide
  · rw [hsplit ',' (by decide)]
    decide
  · rw [hentries]
    decide
  · rw [hunquote]
    decide

end UiCatalog.Code
