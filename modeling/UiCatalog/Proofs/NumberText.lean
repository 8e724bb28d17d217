import UiCatalog.Json.Printer
import UiCatalog.Proofs.JsonGrammar
import UiCatalog.Proofs.Nearest

/-!
# Texts of numbers

A number is written as a numeral of the grammar. Read exactly, an integer is itself and every other numeral is
the floating-point number nearest to its decimal, so what is written for a number stands for that number.
-/
namespace UiCatalog.Json

open Written

namespace Number

/-- An integer of 64 bits. -/
def Fits : Number → Prop
  | natural n => n < Numeral.wordBound
  | negative n => n < twoPower 63
  | float _ => False

/-- An integer of 64 bits or a floating-point number that there is. -/
def Proper : Number → Prop
  | float x => x.Canonical
  | n => n.Fits

lemma Fits.proper {n : Number} (h : n.Fits) : n.Proper := by
  cases n with
  | float => exact h.elim
  | _ => exact h

/-- The numeral of a number; that of a floating-point number is what its text reads as. -/
def numeral : Number → Numeral
  | natural n => ⟨false, Nat.toDigits 10 n, none, none⟩
  | negative n => ⟨true, Nat.toDigits 10 (n + 1), none, none⟩
  | float x => ((readNumeral? (floatLayout.format x)).map Prod.fst).getD ⟨x.negative, [], none, none⟩

end Number

namespace Numeral

/-- All digits as one integer, and the power of ten of the last one. -/
def decimal (n : Numeral) : ℕ × ℤ :=
  let exponent : ℤ := match n.exponent with
    | none => 0
    | some (isNegative, digits) => if isNegative then -naturalOf digits else naturalOf digits
  (naturalOf (n.whole ++ n.fraction.getD []), exponent - (n.fraction.getD []).length)

/-- The number that a numeral stands for, rounded once; none if it is out of range. -/
def nearest? (n : Numeral) : Option Number :=
  match n.integer? with
  | some i => some i
  | none =>
    let (num, den) := Binary64.gridPoint n.decimal.1 n.decimal.2
    (Binary64.ofRatio? n.negative num den).map Number.float

end Numeral

variable {c : Char} {n : ℕ} {x : Binary64}

/-! ## Digits -/

lemma naturalOf_append (ds es : List Char) :
    Numeral.naturalOf (ds ++ es) = Numeral.naturalOf ds * 10 ^ es.length + Numeral.naturalOf es := by
  induction es using List.reverseRecOn with
  | nil => simp [Numeral.naturalOf]
  | append_singleton es e ih =>
    simp only [Numeral.naturalOf, ← List.append_assoc, List.foldl_append, List.foldl_cons, List.foldl_nil] at ih ⊢
    rw [ih, List.length_append, List.length_singleton, pow_succ]
    ring

lemma naturalOf_zeros (k : ℕ) : Numeral.naturalOf (FloatLayout.zeros k) = 0 := by
  induction k with
  | zero => rfl
  | succ k ih =>
    rw [FloatLayout.zeros, List.replicate_succ', naturalOf_append, ← FloatLayout.zeros, ih]
    rfl

lemma naturalOf_toDigits (n : ℕ) : Numeral.naturalOf (Nat.toDigits 10 n) = n := by
  have hfold : Numeral.naturalOf (Nat.toDigits 10 n) = Nat.ofDigitChars 10 (Nat.toDigits 10 n) 0 := by
    simp only [Numeral.naturalOf, Numeral.digitValue, Nat.ofDigitChars_eq_foldl, Nat.mul_comm]
  rw [hfold, Nat.ofDigitChars_ten_toDigits]

lemma isDigits_toDigits (n : ℕ) : IsDigits (Nat.toDigits 10 n) :=
  ⟨Nat.toDigits_ne_nil, fun _ => Nat.isDigit_of_mem_toDigits (by decide) (by decide)⟩

lemma isDigit_zeros {k : ℕ} (h : c ∈ FloatLayout.zeros k) : c.isDigit = true := by
  rw [List.eq_of_mem_replicate h]
  rfl

/-- Only zero starts with a zero. -/
lemma head?_toDigits (h : n ≠ 0) : (Nat.toDigits 10 n).head? ≠ some '0' := by
  induction n using Nat.strongRecOn with
  | _ n ih =>
    rw [Nat.toDigits_eq_if (by decide)]
    split_ifs with hlt
    · simp [h]
    · have hhead := ih (n / 10) (by omega) (by omega)
      rwa [List.head?_append, Option.or_of_isSome (by simp [Nat.toDigits_ne_nil])]

lemma lone_zero (n : ℕ) (h : 1 < (Nat.toDigits 10 n).length) : (Nat.toDigits 10 n).head? ≠ some '0' := by
  rcases eq_or_ne n 0 with rfl | hn
  · simp [Nat.toDigits_zero] at h
  · exact head?_toDigits hn

/-! ## Numerals of floating-point numbers -/

/-- The numeral is written as the text and has the value `count · 10 ^ place`. -/
structure Spells (n : Numeral) (negative : Bool) (text : List Char) (count : ℕ) (place : ℤ) : Prop where
  sign : n.negative = negative
  written : NumeralText n ((if negative then ['-'] else []) ++ text)
  noInteger : n.integer? = none
  value : (n.decimal.1 : ℚ) * (10 : ℚ) ^ n.decimal.2 = count * (10 : ℚ) ^ place

lemma exponentText_signed (e : ℤ) : ExponentText (some (decide (e < 0), Nat.toDigits 10 e.natAbs))
    ('e' :: ((if e < 0 then ['-'] else floatLayout.plus.toList) ++ Nat.toDigits 10 e.natAbs)) := by
  refine .some (.inl rfl) ?_ (isDigits_toDigits _)
  by_cases hneg : e < 0
  · simp only [hneg, decide_true, if_true]
    exact .minus
  · simp only [hneg, decide_false, if_false]
    exact .plus

lemma exponent_signed (e : ℤ) : (if decide (e < 0) = true then -(Numeral.naturalOf (Nat.toDigits 10 e.natAbs) : ℤ)
    else Numeral.naturalOf (Nat.toDigits 10 e.natAbs)) = e := by
  rw [naturalOf_toDigits]
  split_ifs with hneg <;> simp only [decide_eq_true_eq] at hneg <;> omega

section Layouts

variable {digits : List Char} (negative : Bool) (hdigits : IsDigits digits)
include hdigits

/-- Digits with zeros behind them, and a point and a zero. -/
lemma spells_whole {k : ℕ} (hzero : digits.head? ≠ some '0' ∨ digits = ['0'] ∧ k = 0) :
    Spells ⟨negative, digits ++ FloatLayout.zeros k, some ['0'], none⟩ negative
      (digits ++ FloatLayout.zeros k ++ ['.', '0']) (Numeral.naturalOf digits) k where
  sign := rfl
  written := by
    have hwhole : IsDigits (digits ++ FloatLayout.zeros k) :=
      ⟨by simp [hdigits.1], fun c hc => (List.mem_append.1 hc).elim (hdigits.2 c) isDigit_zeros⟩
    have hlone : 1 < (digits ++ FloatLayout.zeros k).length → (digits ++ FloatLayout.zeros k).head? ≠ some '0' := by
      rcases hzero with hhead | ⟨rfl, rfl⟩
      · intro _
        rwa [List.head?_append, Option.or_of_isSome (by simp [hdigits.1])]
      · simp [FloatLayout.zeros]
    exact .mk negative hwhole hlone (.some ⟨by simp, by simp⟩) .none
  noInteger := rfl
  value := by
    have hpoint : Numeral.naturalOf ['0'] = 0 := rfl
    have hlen : (FloatLayout.zeros k).length = k := List.length_replicate
    simp only [Numeral.decimal, Option.getD_some, naturalOf_append, naturalOf_zeros, hpoint, hlen,
      List.length_singleton]
    rw [zero_sub, zpow_neg, zpow_natCast, zpow_natCast]
    push_cast
    ring

/-- Digits with a point between them. -/
lemma spells_split {behind : ℕ} (hhead : digits.head? ≠ some '0') (hbehind : 0 < behind)
    (hlen : behind < digits.length) :
    Spells ⟨negative, digits.take (digits.length - behind), some (digits.drop (digits.length - behind)), none⟩ negative
      (digits.take (digits.length - behind) ++ '.' :: digits.drop (digits.length - behind))
      (Numeral.naturalOf digits) (-behind) where
  sign := rfl
  written := by
    have hwhole : IsDigits (digits.take (digits.length - behind)) :=
      ⟨List.ne_nil_of_length_pos (by simp; omega), fun c hc => hdigits.2 c (List.mem_of_mem_take hc)⟩
    have hpoint : IsDigits (digits.drop (digits.length - behind)) :=
      ⟨List.ne_nil_of_length_pos (by simp; omega), fun c hc => hdigits.2 c (List.mem_of_mem_drop hc)⟩
    have hlone : (digits.take (digits.length - behind)).head? ≠ some '0' := by
      rwa [List.head?_take, if_neg (by omega)]
    have htext := NumeralText.mk negative hwhole (fun _ => hlone) (.some hpoint) .none
    rwa [List.append_nil] at htext
  noInteger := rfl
  value := by
    simp only [Numeral.decimal, Option.getD_some, List.take_append_drop, List.length_drop]
    congr 2
    omega

/-- Zeros around the point and digits behind them. -/
lemma spells_small {behind : ℕ} (hlen : digits.length ≤ behind) :
    Spells ⟨negative, ['0'], some (FloatLayout.zeros (behind - digits.length) ++ digits), none⟩ negative
      (['0', '.'] ++ FloatLayout.zeros (behind - digits.length) ++ digits) (Numeral.naturalOf digits) (-behind) where
  sign := rfl
  written := by
    have hwhole : IsDigits ['0'] := ⟨by simp, by simp⟩
    have hpoint : IsDigits (FloatLayout.zeros (behind - digits.length) ++ digits) :=
      ⟨by simp [hdigits.1], fun c hc => (List.mem_append.1 hc).elim isDigit_zeros (hdigits.2 c)⟩
    have htext := NumeralText.mk negative hwhole (by simp) (.some hpoint) .none
    simpa using htext
  noInteger := rfl
  value := by
    have hzero : Numeral.naturalOf ['0'] = 0 := rfl
    have hcount : (FloatLayout.zeros (behind - digits.length) ++ digits).length = behind := by
      rw [List.length_append, FloatLayout.zeros, List.length_replicate, Nat.sub_add_cancel hlen]
    simp only [Numeral.decimal, Option.getD_some, hcount, zero_sub]
    rw [naturalOf_append, naturalOf_append, naturalOf_zeros, hzero]
    simp

/-- A digit, a point with the other digits if there are any, and an exponent. -/
lemma exists_spells_scientific (place : ℤ) :
    ∃ n, Spells n negative (floatLayout.scientific digits (place + digits.length - 1))
      (Numeral.naturalOf digits) place := by
  obtain ⟨c, cs, rfl, hc⟩ := hdigits.exists_cons
  set exponent : ℤ := place + (c :: cs).length - 1 with hexponent
  have hwhole : IsDigits [c] := ⟨by simp, by simpa using hc⟩
  have hends := exponentText_signed exponent
  have hplace : exponent - cs.length = place := by
    rw [hexponent, List.length_cons]
    omega
  cases cs with
  | nil =>
    refine ⟨⟨negative, [c], none, some (decide (exponent < 0), Nat.toDigits 10 exponent.natAbs)⟩, rfl, ?_, rfl, ?_⟩
    · have htext := NumeralText.mk negative hwhole (by simp) .none hends
      simpa [FloatLayout.scientific] using htext
    · simp only [Numeral.decimal, exponent_signed, Option.getD_none, List.append_nil]
      exact congrArg (fun e : ℤ => _ * (10 : ℚ) ^ e) hplace
  | cons c' cs =>
    have hpoint : IsDigits (c' :: cs) := ⟨by simp, fun d hd => hdigits.2 d (.tail _ hd)⟩
    refine ⟨⟨negative, [c], some (c' :: cs), some (decide (exponent < 0), Nat.toDigits 10 exponent.natAbs)⟩,
      rfl, ?_, rfl, ?_⟩
    · have htext := NumeralText.mk negative hwhole (by simp) (.some hpoint) hends
      simpa [FloatLayout.scientific] using htext
    · simp only [Numeral.decimal, exponent_signed, Option.getD_some, List.singleton_append]
      exact congrArg (fun e : ℤ => _ * (10 : ℚ) ^ e) hplace

end Layouts

/-- A number that is not zero has a digit that is not zero. -/
lemma shortest_ne_zero (hx : x.Canonical) (hm : x.mantissa ≠ 0) : x.shortest.1 ≠ 0 := by
  intro hzero
  have hpos := (Binary64.near_shortest hx hm).pos hx hm
  rw [hzero] at hpos
  simp at hpos

lemma shortest_of_zero (hm : x.mantissa = 0) : x.shortest = (0, 0) := by
  rw [Binary64.shortest, Binary64.isZero, hm]
  rfl

lemma exists_spells_plain (hx : x.Canonical) :
    ∃ n, Spells n x.negative (FloatLayout.plain (Nat.toDigits 10 x.shortest.1) x.shortest.2)
      (Numeral.naturalOf (Nat.toDigits 10 x.shortest.1)) x.shortest.2 := by
  have hdigits := isDigits_toDigits x.shortest.1
  have hhead : x.mantissa ≠ 0 → (Nat.toDigits 10 x.shortest.1).head? ≠ some '0' := fun hm =>
    head?_toDigits (shortest_ne_zero hx hm)
  simp only [FloatLayout.plain]
  split_ifs with hplace hlen
  · have hcast : ((x.shortest.2.toNat : ℕ) : ℤ) = x.shortest.2 := Int.toNat_of_nonneg hplace
    have hspells := spells_whole x.negative hdigits (k := x.shortest.2.toNat) (by
      by_cases hm : x.mantissa = 0
      · exact .inr (by rw [shortest_of_zero hm]; exact ⟨rfl, rfl⟩)
      · exact .inl (hhead hm))
    rw [hcast] at hspells
    exact ⟨_, hspells⟩
  · have hm : x.mantissa ≠ 0 := fun hm => hplace (by rw [shortest_of_zero hm])
    have hcast : -(((-x.shortest.2).toNat : ℕ) : ℤ) = x.shortest.2 := by omega
    have hspells := spells_split x.negative hdigits (hhead hm) (by omega) hlen
    rw [hcast] at hspells
    exact ⟨_, hspells⟩
  · have hcast : -(((-x.shortest.2).toNat : ℕ) : ℤ) = x.shortest.2 := by omega
    have hspells := spells_small x.negative hdigits (not_lt.1 hlen)
    rw [hcast] at hspells
    exact ⟨_, hspells⟩

/-- What is written for a floating-point number is a numeral with the value of its digits. -/
lemma exists_spells_format (hx : x.Canonical) :
    ∃ n, n.negative = x.negative ∧ NumeralText n (floatLayout.format x) ∧ n.integer? = none ∧
      (n.decimal.1 : ℚ) * (10 : ℚ) ^ n.decimal.2 = x.shortest.1 * (10 : ℚ) ^ x.shortest.2 := by
  suffices hspells : ∃ n, Spells n x.negative
      (if floatLayout.plainFrom ≤ x.shortest.2 + (Nat.toDigits 10 x.shortest.1).length - 1 ∧
          x.shortest.2 + (Nat.toDigits 10 x.shortest.1).length - 1 ≤ floatLayout.plainTo
        then FloatLayout.plain (Nat.toDigits 10 x.shortest.1) x.shortest.2
        else floatLayout.scientific (Nat.toDigits 10 x.shortest.1)
          (x.shortest.2 + (Nat.toDigits 10 x.shortest.1).length - 1))
      (Numeral.naturalOf (Nat.toDigits 10 x.shortest.1)) x.shortest.2 by
    obtain ⟨n, hsign, htext, hnone, heq⟩ := hspells
    rw [naturalOf_toDigits] at heq
    exact ⟨n, hsign, htext, hnone, heq⟩
  split_ifs
  · exact exists_spells_plain hx
  · exact exists_spells_scientific x.negative (isDigits_toDigits _) _

/-! ## What is written for a number -/

theorem numeralText_chars {n : Number} (h : n.Proper) : NumeralText n.numeral n.chars := by
  cases n with
  | natural n =>
    have htext := NumeralText.mk false (isDigits_toDigits n) (lone_zero n) .none .none
    simpa [Number.numeral, Number.chars] using htext
  | negative n =>
    have htext := NumeralText.mk true (isDigits_toDigits (n + 1)) (lone_zero (n + 1)) .none .none
    simpa [Number.numeral, Number.chars] using htext
  | float x =>
    obtain ⟨n, -, htext, -, -⟩ := exists_spells_format h
    have hread := readNumeral?_complete htext endsNumeral_nil
    rw [List.append_nil] at hread
    rw [Number.numeral, hread]
    exact htext

/-- An integer is read as it is written. -/
theorem value?_numeral {n : Number} (hn : n.Fits) : n.numeral.value? = some n := by
  cases n with
  | natural n =>
    have hlt : n < Numeral.wordBound := hn
    simp [Number.numeral, Numeral.value?, Numeral.integer?, naturalOf_toDigits, hlt]
  | negative n =>
    have hle : n + 1 ≤ twoPower 63 := hn
    simp [Number.numeral, Numeral.value?, Numeral.integer?, naturalOf_toDigits, hle]
  | float x => exact hn.elim

/-- What is written for a number stands for it. -/
theorem nearest?_numeral {n : Number} (h : n.Proper) : n.numeral.nearest? = some n := by
  cases n with
  | natural n =>
    have hlt : n < Numeral.wordBound := h
    simp [Number.numeral, Numeral.nearest?, Numeral.integer?, naturalOf_toDigits, hlt]
  | negative n =>
    have hle : n + 1 ≤ twoPower 63 := h
    simp [Number.numeral, Numeral.nearest?, Numeral.integer?, naturalOf_toDigits, hle]
  | float x =>
    obtain ⟨n, hsign, htext, hnone, hvalue⟩ := exists_spells_format h
    have hread := readNumeral?_complete htext endsNumeral_nil
    rw [List.append_nil] at hread
    rw [← Binary64.gridPoint_value] at hvalue
    have hratio := Binary64.ofRatio?_of_shortest h (Binary64.tenPower_pos _) hvalue
    rw [← hsign] at hratio
    simp only [Number.numeral, hread, Option.map_some, Option.getD_some, Numeral.nearest?, hnone]
    exact congrArg (Option.map Number.float) hratio

/-! ## The characters of numbers -/

/-- A digit, a sign, a point or the mark of an exponent. -/
def isNumeralChar (c : Char) : Bool := c.isDigit || ['-', '+', '.', 'e'].contains c

lemma isNumeralChar_iff : isNumeralChar c = true ↔ c.isDigit = true ∨ c ∈ ['-', '+', '.', 'e'] := by
  rw [isNumeralChar, Bool.or_eq_true, List.contains_iff_mem]

lemma all_toDigits (n : ℕ) : (Nat.toDigits 10 n).all isNumeralChar = true :=
  List.all_eq_true.2 fun c hc => isNumeralChar_iff.2 (.inl ((isDigits_toDigits n).2 c hc))

lemma all_zeros (n : ℕ) : (FloatLayout.zeros n).all isNumeralChar = true :=
  List.all_eq_true.2 fun _ hc => isNumeralChar_iff.2 (.inl (isDigit_zeros hc))

lemma all_format (x : Binary64) : (floatLayout.format x).all isNumeralChar = true := by
  have hdigits := all_toDigits x.shortest.1
  have hsome {t : List Char} (ht : t ⊆ Nat.toDigits 10 x.shortest.1) : t.all isNumeralChar = true :=
    List.all_eq_true.2 fun c hc => List.all_eq_true.1 hdigits c (ht hc)
  have hmarks : isNumeralChar '.' = true ∧ isNumeralChar '0' = true ∧ isNumeralChar 'e' = true ∧
      isNumeralChar '-' = true := by decide
  have hplain (place : ℤ) : (FloatLayout.plain (Nat.toDigits 10 x.shortest.1) place).all isNumeralChar = true := by
    simp only [FloatLayout.plain]
    split_ifs <;> simp only [List.all_append, List.all_cons, List.all_nil, hdigits, all_zeros, hmarks,
      hsome (List.take_subset _ _), hsome (List.drop_subset _ _), Bool.and_self]
  have hscientific (e : ℤ) :
      (floatLayout.scientific (Nat.toDigits 10 x.shortest.1) e).all isNumeralChar = true := by
    have hplus : floatLayout.plus.toList.all isNumeralChar = true := by decide
    simp only [FloatLayout.scientific]
    split_ifs <;> simp only [List.all_append, List.all_cons, List.all_nil, all_toDigits, hplus, hmarks,
      hsome (List.take_subset _ _), hsome (List.drop_subset _ _), Bool.and_self]
  simp only [FloatLayout.format]
  split_ifs <;> simp only [List.all_append, List.all_cons, List.all_nil, hplain, hscientific, hmarks, Bool.and_self]

lemma isNumeralChar_of_mem_chars {n : Number} (h : c ∈ n.chars) : isNumeralChar c = true := by
  have hall : n.chars.all isNumeralChar = true := by
    cases n with
    | natural n => exact all_toDigits n
    | negative n =>
      rw [Number.chars, List.all_cons, all_toDigits]
      rfl
    | float x => exact all_format x
  exact List.all_eq_true.1 hall c h

end UiCatalog.Json
