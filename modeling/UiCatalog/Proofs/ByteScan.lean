import Mathlib
import UiCatalog.Code.Bracket
import UiCatalog.Text.Utf8
import UiCatalog.Proofs.BytePlaces
import UiCatalog.Proofs.Nesting

/-!
# Scanning bytes

`visits` scans the bytes of a text and jumps over strings and comments, two bytes at an escape and at the marks of a
block comment. Such a jump may end inside of a character or behind the end. It makes no difference: from every region
the scanner comes to the same characters of ASCII as `mark` does, which goes from character to character
(`asciiOnly_visits`).
-/
namespace UiCatalog.Code

open Text

/-- The bytes of a text. -/
def bytesOf (s : List Char) : List UInt8 := Utf8.encode (String.ofList s)

/-- A byte read as the character of its number. -/
def byteAt? (bytes : List UInt8) (i : Nat) : Option Char := bytes[i]?.map Char.ofUInt8

/-- The place behind a string literal, from a place inside of it on. -/
def skipString (bytes : List UInt8) (quote : Char) (i : Nat) : Nat :=
  if h : i < bytes.length then
    if Char.ofUInt8 bytes[i] = '\\' then skipString bytes quote (i + 2)
    else if Char.ofUInt8 bytes[i] = quote then i + 1
    else skipString bytes quote (i + 1)
  else bytes.length
termination_by bytes.length - i

/-- The first place before `size` with a mark; where there is none, the search runs up to the end. -/
def seek (size : Nat) (marked : Nat → Bool) (i : Nat) : Nat :=
  if i < size then if marked i then i else seek size marked (i + 1) else i
termination_by size - i

def endsLine (bytes : List UInt8) (i : Nat) : Bool := byteAt? bytes i == some '\n'

def endsBlock (bytes : List UInt8) (i : Nat) : Bool := byteAt? bytes i == some '*' && byteAt? bytes (i + 1) == some '/'

variable {bytes rest : List UInt8} {i j k size : Nat} {b c d quote : Char} {s : List Char} {region : Region}
  {marked : Nat → Bool} {next : Option Char}

lemma le_skipString (bytes : List UInt8) (quote : Char) (i : Nat) :
    min i bytes.length ≤ skipString bytes quote i := by
  fun_induction skipString bytes quote i <;> omega

lemma le_seek (size : Nat) (marked : Nat → Bool) (i : Nat) : i ≤ seek size marked i := by
  fun_induction seek size marked i <;> omega

lemma seek_of_not_marked (hi : i < size) (h : marked i = false) :
    seek size marked i = seek size marked (i + 1) := by
  rw [seek, if_pos hi, h]
  rfl

/-- Every byte outside of strings and comments, from place `i` on, with its place. -/
def visits (bytes : List UInt8) (i : Nat) : List (Nat × Char) :=
  if h : i < bytes.length then
    let c := Char.ofUInt8 bytes[i]
    if isQuote c then visits bytes (skipString bytes c (i + 1))
    else if hline : c = '/' ∧ byteAt? bytes (i + 1) = some '/' then
      visits bytes (seek bytes.length (endsLine bytes) i)
    else if c = '/' ∧ byteAt? bytes (i + 1) = some '*' then
      visits bytes (seek bytes.length (endsBlock bytes) (i + 2) + 2)
    else (i, c) :: visits bytes (i + 1)
  else []
termination_by bytes.length - i
decreasing_by
  · have hskip := le_skipString bytes (Char.ofUInt8 bytes[i]) (i + 1)
    omega
  · have hslash : endsLine bytes i = false := by simp [endsLine, byteAt?, h, c, hline.1]
    have hseek := le_seek bytes.length (endsLine bytes) (i + 1)
    rw [seek_of_not_marked h hslash]
    omega
  · have hseek := le_seek bytes.length (endsBlock bytes) (i + 2)
    omega
  · omega

/-! ## The bytes of a text -/

lemma toList_loop (b : ByteArray) (i : Nat) (front : List UInt8) :
    ByteArray.toList.loop b i front = front.reverse ++ b.data.toList.drop i := by
  fun_induction ByteArray.toList.loop b i front with
  | case1 i front h ih =>
    have hi : i < b.data.toList.length := by simpa using h
    rw [ih, List.drop_eq_getElem_cons hi]
    simp [ByteArray.get!, h]
  | case2 i front h =>
    rw [List.drop_eq_nil_of_le (by simpa using h), List.append_nil]

lemma bytesOf_eq (s : List Char) : bytesOf s = s.flatMap String.utf8EncodeChar := by
  rw [bytesOf, Utf8.encode, String.toUTF8_eq_toByteArray, String.toByteArray_ofList, ByteArray.toList, toList_loop]
  simp [List.utf8Encode]

@[simp] lemma bytesOf_nil : bytesOf [] = [] := bytesOf_eq []

lemma bytesOf_cons (c : Char) (s : List Char) : bytesOf (c :: s) = String.utf8EncodeChar c ++ bytesOf s := by
  rw [bytesOf_eq, List.flatMap_cons, ← bytesOf_eq]

lemma length_bytesOf (s : List Char) : (bytesOf s).length = byteSize s := by
  induction s with
  | nil => rw [bytesOf_nil]; rfl
  | cons c s ih => rw [bytesOf_cons, List.length_append, String.length_utf8EncodeChar, ih, byteSize_cons]

/-- A character of ASCII is one byte. -/
lemma utf8Size_of_ascii (hc : c.toNat < 0x80) : c.utf8Size = 1 := by
  rw [Char.utf8Size_eq_one_iff, UInt32.le_iff_toNat_le]
  exact Nat.le_of_lt_succ hc

lemma utf8EncodeChar_of_ascii (hc : c.toNat < 0x80) : String.utf8EncodeChar c = [c.toUInt8] :=
  String.utf8EncodeChar_eq_singleton (utf8Size_of_ascii hc)

lemma toNat_ofUInt8 (b : UInt8) : (Char.ofUInt8 b).toNat = b.toNat := rfl

lemma ofUInt8_toUInt8 (hc : c.toNat < 0x80) : Char.ofUInt8 c.toUInt8 = c := by
  apply Char.toNat_inj.1
  rw [toNat_ofUInt8]
  change c.toNat % 256 = _
  omega

/-- No byte of another character is one of ASCII. -/
lemma le_of_mem_utf8EncodeChar (hc : 0x80 ≤ c.toNat) {b : UInt8} (hb : b ∈ String.utf8EncodeChar c) :
    0x80 ≤ b.toNat := by
  have hnot : ¬ c.val.toNat ≤ 0x7f := Nat.not_le.2 hc
  have hbyte (n : Nat) (hn : 0x80 ≤ n) (hn' : n < 0x100) (h : b = UInt8.ofNat n) : 0x80 ≤ b.toNat := by
    rwa [h, UInt8.toNat_ofNat_of_lt' hn']
  simp only [String.utf8EncodeChar, if_neg hnot] at hb
  split_ifs at hb <;> simp only [List.mem_cons, List.not_mem_nil, or_false] at hb
  · rcases hb with hb | hb <;> exact hbyte _ (by omega) (by omega) hb
  · rcases hb with hb | hb | hb <;> exact hbyte _ (by omega) (by omega) hb
  · rcases hb with hb | hb | hb | hb <;> exact hbyte _ (by omega) (by omega) hb

/-- In the bytes stands the character `c`, from place `i` up to place `j`. -/
structure Stands (bytes : List UInt8) (i : Nat) (c : Char) (j : Nat) : Prop where
  lt : i < j
  le : j ≤ bytes.length
  ascii : c.toNat < 0x80 → j = i + 1
  first : ∀ d, d.toNat < 0x80 → (byteAt? bytes i = some d ↔ c = d)
  others : ∀ k, i < k → k < j → ∀ d, d.toNat < 0x80 → byteAt? bytes k ≠ some d

/-- A byte is taken for the same character of ASCII as the character `next`, or neither is one. -/
def ReadsAs (bytes : List UInt8) (i : Nat) (next : Option Char) : Prop :=
  ∀ d, d.toNat < 0x80 → (byteAt? bytes i = some d ↔ next = some d)

lemma stands_of_drop (h : bytes.drop i = String.utf8EncodeChar c ++ rest) : Stands bytes i c (i + c.utf8Size) := by
  have hsize := c.utf8Size_pos
  have hlen : bytes.length = i + c.utf8Size + rest.length := by
    have hdrop := congrArg List.length h
    rw [List.length_drop, List.length_append, String.length_utf8EncodeChar] at hdrop
    omega
  have hread (k : Nat) : bytes[i + k]? = (String.utf8EncodeChar c ++ rest)[k]? := by
    rw [← h, List.getElem?_drop]
  have hout (hc : ¬ c.toNat < 0x80) (k : Nat) (hk : k < c.utf8Size) (d : Char) (hd : d.toNat < 0x80) :
      byteAt? bytes (i + k) ≠ some d := by
    have hlt : k < (String.utf8EncodeChar c).length := by rwa [String.length_utf8EncodeChar]
    rw [byteAt?, hread, List.getElem?_append_left hlt, List.getElem?_eq_getElem hlt, Option.map_some]
    rintro ⟨rfl⟩
    have hle := le_of_mem_utf8EncodeChar (Nat.not_lt.1 hc) (List.getElem_mem hlt)
    rw [toNat_ofUInt8] at hd
    omega
  refine ⟨by omega, by omega, fun hc => by rw [utf8Size_of_ascii hc], fun d hd => ?_, fun k hk hkj => ?_⟩
  · by_cases hc : c.toNat < 0x80
    · have hfirst : byteAt? bytes i = some c := by
        have hzero := hread 0
        rw [utf8EncodeChar_of_ascii hc, Nat.add_zero] at hzero
        rw [byteAt?, hzero, List.singleton_append, List.getElem?_cons_zero, Option.map_some, ofUInt8_toUInt8 hc]
      rw [hfirst, Option.some_inj]
    · have hne := hout hc 0 hsize d hd
      exact ⟨fun heq => absurd heq hne, fun heq => absurd hd (heq ▸ hc)⟩
  · obtain ⟨k, rfl⟩ := Nat.exists_eq_add_of_lt hk
    by_cases hc : c.toNat < 0x80
    · rw [utf8Size_of_ascii hc] at hkj
      omega
    · exact hout hc (k + 1) (by omega)

/-! ## One character -/

/-- The characters of ASCII among those at the given places. -/
def asciiOnly (places : List (Nat × Char)) : List (Nat × Char) := places.filter fun place => place.2.toNat < 0x80

lemma asciiOnly_append (places places' : List (Nat × Char)) :
    asciiOnly (places ++ places') = asciiOnly places ++ asciiOnly places' := List.filter_append ..

lemma byteAt?_of_lt (h : i < bytes.length) : byteAt? bytes i = some (Char.ofUInt8 bytes[i]) := by
  rw [byteAt?, List.getElem?_eq_getElem h, Option.map_some]

lemma skipString_of_le (h : bytes.length ≤ i) : skipString bytes quote i = bytes.length := by
  rw [skipString, dif_neg (Nat.not_lt.2 h)]

lemma skipString_of_lt (h : i < bytes.length) : skipString bytes quote i =
    if byteAt? bytes i = some '\\' then skipString bytes quote (i + 2)
    else if byteAt? bytes i = some quote then i + 1 else skipString bytes quote (i + 1) := by
  rw [skipString, dif_pos h, byteAt?_of_lt h]
  simp only [Option.some_inj]

lemma seek_of_le (h : size ≤ i) : seek size marked i = i := by
  rw [seek, if_neg (Nat.not_lt.2 h)]

lemma seek_of_marked (h : marked i = true) : seek size marked i = i := by
  by_cases hi : i < size
  · rw [seek, if_pos hi, if_pos h]
  · exact seek_of_le (Nat.not_lt.1 hi)

lemma visits_of_le (h : bytes.length ≤ i) : visits bytes i = [] := by
  rw [visits, dif_neg (Nat.not_lt.2 h)]

lemma visits_of_lt (h : i < bytes.length) (hd : byteAt? bytes i = some d) : visits bytes i =
    if isQuote d then visits bytes (skipString bytes d (i + 1))
    else if d = '/' ∧ byteAt? bytes (i + 1) = some '/' then visits bytes (seek bytes.length (endsLine bytes) i)
    else if d = '/' ∧ byteAt? bytes (i + 1) = some '*' then
      visits bytes (seek bytes.length (endsBlock bytes) (i + 2) + 2)
    else (i, d) :: visits bytes (i + 1) := by
  obtain rfl := Option.some.inj ((byteAt?_of_lt h).symm.trans hd)
  rw [visits, dif_pos h]
  rfl

/-- What passes over every byte of a character but the first comes to the next character. -/
lemma eq_of_passes {α : Type} {f : Nat → α} (h : ∀ k, i < k → k < j → f k = f (k + 1)) (hij : i < j) :
    f (i + 1) = f j := by
  induction j, hij using Nat.le_induction with
  | base => rfl
  | succ j hij ih => rw [ih fun k hk hkj => h k hk (by omega), h j hij (by omega)]

lemma ascii_of_isQuote (h : isQuote c = true) : c.toNat < 0x80 := by
  rcases isQuote_iff.1 h with rfl | rfl | rfl <;> decide

lemma not_mark_of_not_ascii (h : 0x80 ≤ c.toNat) : isQuote c = false ∧ c ≠ '/' := by
  constructor
  · by_contra hquote
    exact absurd (ascii_of_isQuote (Bool.not_eq_false _ ▸ hquote)) (Nat.not_lt.2 h)
  · rintro rfl
    exact absurd h (by decide)

namespace Stands

variable (h : Stands bytes i c j)
include h

lemma skipString_succ (hq : quote.toNat < 0x80) : skipString bytes quote (i + 1) = skipString bytes quote j := by
  refine eq_of_passes (fun k hk hkj => ?_) h.lt
  have hle := h.le
  rw [skipString_of_lt (by omega), if_neg (h.others k hk hkj _ (by decide)), if_neg (h.others k hk hkj _ hq)]

lemma seek_succ {marked : Nat → Bool} (hm : ∀ k, i < k → k < j → marked k = false) :
    seek bytes.length marked (i + 1) = seek bytes.length marked j := by
  refine eq_of_passes (fun k hk hkj => ?_) h.lt
  have hle := h.le
  exact seek_of_not_marked (by omega) (hm k hk hkj)

lemma endsLine_eq_false (hk : i < k) (hkj : k < j) : endsLine bytes k = false := by
  simp [endsLine, h.others k hk hkj]

lemma endsBlock_eq_false (hk : i < k) (hkj : k < j) : endsBlock bytes k = false := by
  simp [endsBlock, h.others k hk hkj]

lemma asciiOnly_visits_succ : asciiOnly (visits bytes (i + 1)) = asciiOnly (visits bytes j) := by
  refine eq_of_passes (f := fun k => asciiOnly (visits bytes k)) (fun k hk hkj => ?_) h.lt
  have hle := h.le
  have hlt : k < bytes.length := by omega
  have hout : 0x80 ≤ (Char.ofUInt8 bytes[k]).toNat := by
    by_contra hascii
    exact h.others k hk hkj _ (Nat.not_le.1 hascii) (byteAt?_of_lt hlt)
  obtain ⟨hquote, hslash⟩ := not_mark_of_not_ascii hout
  rw [visits_of_lt hlt (byteAt?_of_lt hlt)]
  simp [hquote, hslash, asciiOnly, hout]

end Stands

/-! ## From any region -/

/-- The characters that are code with their places in bytes, the first character being at place `i`. -/
def codePlaces : Nat → List (Char × Bool) → List (Nat × Char)
  | _, [] => []
  | i, (c, isCode) :: rest =>
    if isCode then (i, c) :: codePlaces (i + c.utf8Size) rest else codePlaces (i + c.utf8Size) rest

/-- Where the scanner goes on with code, when it is in a region at place `i`. -/
def Region.resume (bytes : List UInt8) (i : Nat) : Region → Nat
  | .code => i
  | .quoted quote => skipString bytes quote i
  | .escaped quote => skipString bytes quote (i + 1)
  | .lineComment => seek bytes.length (endsLine bytes) i
  | .blockOpening => seek bytes.length (endsBlock bytes) (i + 1) + 2
  | .blockComment => seek bytes.length (endsBlock bytes) i + 2
  | .blockClosing => i + 1

/-- A literal is only ever opened by a quote. -/
def Region.Opened : Region → Prop
  | .quoted quote | .escaped quote => isQuote quote = true
  | _ => True

lemma Region.opened_step (h : region.Opened) (c : Char) (next : Option Char) : (region.step c next).2.Opened := by
  cases region with
  | code =>
    rw [Region.step]
    split_ifs with hquote
    · exact hquote
    all_goals trivial
  | quoted quote =>
    rw [Region.step]
    split_ifs
    · exact h
    · trivial
    · exact h
  | escaped quote => exact h
  | lineComment | blockComment =>
    rw [Region.step]
    split_ifs <;> trivial
  | blockOpening | blockClosing => trivial

lemma asciiOnly_cons (hc : ∀ d, d.toNat < 0x80 → (b = d ↔ c = d)) (places : List (Nat × Char)) :
    asciiOnly ((i, b) :: places) = asciiOnly ((i, c) :: places) := by
  by_cases hascii : b.toNat < 0x80
  · rw [(hc b hascii).1 rfl]
  · have hc' : ¬ c.toNat < 0x80 := fun hlt => hascii ((hc c hlt).2 rfl ▸ hlt)
    simp [asciiOnly, hascii, hc']

/-- Two characters of ASCII stand one after the other in the bytes just when they do so in the text. -/
lemma Stands.pair (h : Stands bytes i c j) (hnext : ReadsAs bytes j next) (hb : b.toNat < 0x80)
    (hd : d.toNat < 0x80) : byteAt? bytes i = some b ∧ byteAt? bytes (i + 1) = some d ↔ c = b ∧ next = some d := by
  rw [h.first b hb]
  refine and_congr_right fun hc => ?_
  rw [← h.ascii (hc ▸ hb), hnext d hd]

/-- One character of code: the scanner of the bytes goes on where the next character starts. -/
lemma asciiOnly_visits_code (h : Stands bytes i c j) (hnext : ReadsAs bytes j next) :
    asciiOnly (visits bytes i) = asciiOnly ((if (Region.code.step c next).1 then [(i, c)] else []) ++
      visits bytes ((Region.code.step c next).2.resume bytes j)) := by
  have hlt : i < bytes.length := h.lt.trans_le h.le
  obtain ⟨b, hb⟩ : ∃ b, byteAt? bytes i = some b := ⟨_, byteAt?_of_lt hlt⟩
  have hfirst (d : Char) (hd : d.toNat < 0x80) : b = d ↔ c = d := by rw [← h.first d hd, hb, Option.some_inj]
  have hquote : isQuote b = isQuote c := by
    rw [Bool.eq_iff_iff, isQuote_iff, isQuote_iff, hfirst _ (by decide), hfirst _ (by decide), hfirst _ (by decide)]
  have hpair (d : Char) (hd : d.toNat < 0x80) :
      b = '/' ∧ byteAt? bytes (i + 1) = some d ↔ c = '/' ∧ next = some d := by
    rw [← h.pair hnext (by decide) hd, hb, Option.some_inj]
  rw [visits_of_lt hlt hb, hquote, Region.step]
  simp only [hpair '/' (by decide), hpair '*' (by decide)]
  by_cases hq : isQuote c = true
  · -- a quote is ASCII, so the literal ends at the same quote
    have hascii := ascii_of_isQuote hq
    rw [if_pos hq, if_pos hq, (hfirst c hascii).2 rfl, h.skipString_succ hascii]
    rfl
  rw [if_neg hq, if_neg hq]
  by_cases hline : c = '/' ∧ next = some '/'
  · -- the search for the end of the line starts at the slash, which is none
    have hslash : endsLine bytes i = false := by simp [endsLine, hb, (hfirst '/' (by decide)).2 hline.1]
    rw [if_pos hline, if_pos hline, seek_of_not_marked hlt hslash, h.seek_succ fun k => h.endsLine_eq_false]
    rfl
  rw [if_neg hline, if_neg hline]
  by_cases hblock : c = '/' ∧ next = some '*'
  · rw [if_pos hblock, if_pos hblock, h.ascii (hblock.1 ▸ by decide)]
    rfl
  · rw [if_neg hblock, if_neg hblock, asciiOnly_cons hfirst, ← List.singleton_append, asciiOnly_append,
      h.asciiOnly_visits_succ, ← asciiOnly_append]
    rfl

/-- One character, from any region: the scanner of the bytes goes on where the next character starts. -/
lemma asciiOnly_visits_step (hr : region.Opened) (h : Stands bytes i c j) (hnext : ReadsAs bytes j next) :
    asciiOnly (visits bytes (region.resume bytes i)) =
      asciiOnly ((if (region.step c next).1 then [(i, c)] else []) ++
        visits bytes ((region.step c next).2.resume bytes j)) := by
  have hlt : i < bytes.length := h.lt.trans_le h.le
  cases region with
  | code => exact asciiOnly_visits_code h hnext
  | quoted quote =>
    have hascii := ascii_of_isQuote hr
    rw [Region.resume, skipString_of_lt hlt, Region.step]
    simp only [h.first _ hascii, h.first '\\' (by decide)]
    by_cases hescape : c = '\\'
    · rw [if_pos hescape, if_pos hescape, h.ascii (hescape ▸ by decide)]
      rfl
    rw [if_neg hescape, if_neg hescape]
    by_cases hclose : c = quote
    · rw [if_pos hclose, if_pos hclose, h.ascii (hclose ▸ hascii)]
      rfl
    · rw [if_neg hclose, if_neg hclose, h.skipString_succ hascii]
      rfl
  | escaped quote =>
    -- one byte was jumped over, which need not be the whole character
    have hascii := ascii_of_isQuote hr
    rw [Region.resume, h.skipString_succ hascii]
    rfl
  | lineComment =>
    rw [Region.resume, Region.step]
    by_cases hc : c = '\n'
    · have hfeed : byteAt? bytes i = some '\n' := (h.first '\n' (by decide)).2 hc
      rw [if_pos hc, seek_of_marked (by simp [endsLine, hfeed]), visits_of_lt hlt hfeed, h.ascii (hc ▸ by decide), hc]
      rfl
    · have hfeed : endsLine bytes i = false := by simp [endsLine, h.first '\n', hc]
      rw [if_neg hc, seek_of_not_marked hlt hfeed, h.seek_succ fun k => h.endsLine_eq_false]
      rfl
  | blockOpening =>
    rw [Region.resume, h.seek_succ fun k => h.endsBlock_eq_false]
    rfl
  | blockComment =>
    have hends : endsBlock bytes i = true ↔ c = '*' ∧ next = some '/' := by
      rw [← h.pair hnext (by decide) (by decide)]
      simp [endsBlock]
    rw [Region.resume, Region.step]
    by_cases hc : c = '*' ∧ next = some '/'
    · rw [if_pos hc, seek_of_marked (hends.2 hc), h.ascii (hc.1 ▸ by decide)]
      rfl
    · rw [if_neg hc, seek_of_not_marked hlt (Bool.eq_false_iff.2 fun htrue => hc (hends.1 htrue)),
        h.seek_succ fun k => h.endsBlock_eq_false]
      rfl
  | blockClosing => exact h.asciiOnly_visits_succ

/-- From any region the scanner of the bytes comes to the same characters of ASCII as the one of the characters. -/
lemma asciiOnly_visits (region : Region) (hr : region.Opened) (hs : bytes.drop i = bytesOf s) :
    asciiOnly (visits bytes (region.resume bytes i)) = asciiOnly (codePlaces i (region.mark s)) := by
  induction s generalizing i region with
  | nil =>
    have hle : bytes.length ≤ i := List.drop_eq_nil_iff.1 (hs.trans bytesOf_nil)
    have hresume : bytes.length ≤ region.resume bytes i := by
      -- a jump may end behind the bytes
      cases region with
      | code => exact hle
      | quoted quote => exact (skipString_of_le hle).ge
      | escaped quote => exact (skipString_of_le (hle.trans (Nat.le_succ i))).ge
      | lineComment => exact hle.trans (le_seek _ _ i)
      | blockOpening => exact hle.trans ((Nat.le_succ i).trans ((le_seek _ _ _).trans (Nat.le_add_right _ 2)))
      | blockComment => exact hle.trans ((le_seek _ _ i).trans (Nat.le_add_right _ 2))
      | blockClosing => exact hle.trans (Nat.le_succ i)
    rw [visits_of_le hresume]
    rfl
  | cons c s ih =>
    rw [bytesOf_cons] at hs
    have hstands := stands_of_drop hs
    have hrest : bytes.drop (i + c.utf8Size) = bytesOf s := by
      rw [← List.drop_drop, hs, List.drop_left' (String.length_utf8EncodeChar c)]
    have hnext : ReadsAs bytes (i + c.utf8Size) s.head? := by
      intro d hd
      cases s with
      | nil =>
        have hend : bytes.length ≤ i + c.utf8Size := List.drop_eq_nil_iff.1 (hrest.trans bytesOf_nil)
        simp [byteAt?, List.getElem?_eq_none hend]
      | cons d' s =>
        rw [bytesOf_cons] at hrest
        rw [(stands_of_drop hrest).first d hd, List.head?_cons, Option.some_inj]
    rw [asciiOnly_visits_step hr hstands hnext, asciiOnly_append, ih _ (region.opened_step hr c s.head?) hrest,
      ← asciiOnly_append, Region.mark]
    rcases region.step c s.head? with ⟨_ | _, after⟩ <;> rfl

end UiCatalog.Code
