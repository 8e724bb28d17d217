import Mathlib
import UiCatalog.Number.Shortest

/-!
# The decimal that is written is nearest to its number

Ratios are compared as rational numbers. A number is the nearest one to all ratios of its neighbourhood, so a
decimal of the neighbourhood is read back as the number; the search for the fewest digits finds such a decimal
with seventeen digits at the latest.
-/
namespace UiCatalog.Binary64

/-- The numbers that there are: the mantissa has 53 bits, or fewer at the least power of two. -/
structure Canonical (x : Binary64) : Prop where
  mantissa_lt : x.mantissa < 2 ^ 53
  least_le : minExponent ≤ x.exponent
  le_largest : x.exponent ≤ maxExponent
  normal : 2 ^ 52 ≤ x.mantissa ∨ x.exponent = minExponent

/-- The ratio belongs to the neighbourhood of the number, in units of a quarter of its last bit. -/
structure Near (x : Binary64) (q : ℚ) : Prop where
  lower : x.neighbourhood.1 * (2 : ℚ) ^ x.exponent ≤ 4 * q
  upper : 4 * q ≤ x.neighbourhood.2 * (2 : ℚ) ^ x.exponent
  inside : x.mantissa % 2 = 0 ∨
    x.neighbourhood.1 * (2 : ℚ) ^ x.exponent < 4 * q ∧ 4 * q < x.neighbourhood.2 * (2 : ℚ) ^ x.exponent

variable {x : Binary64} {num den a n d m : ℕ} {negative : Bool} {place : ℤ}

/-! ## Powers as rational numbers -/

lemma pow_div_pow (b : ℕ) (hb : b ≠ 0) (e : ℤ) :
    ((b ^ e.toNat : ℕ) : ℚ) / ((b ^ (-e).toNat : ℕ) : ℚ) = (b : ℚ) ^ e := by
  have hne : (b : ℚ) ≠ 0 := by exact_mod_cast hb
  obtain ⟨k, rfl | rfl⟩ := e.eq_nat_or_neg <;> simp

lemma twoPower_div (e : ℤ) : (twoPower e.toNat : ℚ) / twoPower (-e).toNat = (2 : ℚ) ^ e :=
  pow_div_pow 2 (by decide) e

lemma tenPower_div (e : ℤ) : (tenPower e.toNat : ℚ) / tenPower (-e).toNat = (10 : ℚ) ^ e :=
  pow_div_pow 10 (by decide) e

lemma twoPower_pos (n : ℕ) : 0 < twoPower n := Nat.two_pow_pos n

lemma tenPower_pos (n : ℕ) : 0 < tenPower n := Nat.pow_pos (by decide)

lemma ratio_value (x : Binary64) : (x.ratio.1 : ℚ) / x.ratio.2 = x.mantissa * (2 : ℚ) ^ x.exponent := by
  rw [ratio, ← twoPower_div]
  push_cast
  ring

lemma gridPoint_value (count : ℕ) (place : ℤ) :
    ((gridPoint count place).1 : ℚ) / (gridPoint count place).2 = count * (10 : ℚ) ^ place := by
  rw [gridPoint, ← tenPower_div]
  push_cast
  ring

lemma scaled_value (num den : ℕ) (e : ℤ) :
    ((scaled num den e).1 : ℚ) / (scaled num den e).2 = num / den / (2 : ℚ) ^ e := by
  have hinv : (2 : ℚ) ^ e = ((2 : ℚ) ^ (-e))⁻¹ := by rw [zpow_neg, inv_inv]
  rw [hinv, ← twoPower_div, scaled, neg_neg]
  push_cast
  field_simp

lemma scaled_pos (hden : 0 < den) (e : ℤ) : 0 < (scaled num den e).2 := Nat.mul_pos hden (twoPower_pos _)

/-! ## Rounding -/

/-- An integer that is at most a half away from a quotient is its floor or the next one. -/
lemma div_or_div_add_one (hd : 0 < d) (lower : 2 * (a * d) ≤ 2 * n + d) (upper : 2 * n ≤ 2 * (a * d) + d) :
    n / d = a ∨ n / d + 1 = a := by
  have hn : d * (n / d) + n % d = n := Nat.div_add_mod n d
  have hmod : n % d < d := Nat.mod_lt n hd
  have hle : n / d ≤ a := by
    by_contra hlt
    have hmul : d * (a + 1) ≤ d * (n / d) := Nat.mul_le_mul_left d (by omega)
    rw [Nat.mul_add, Nat.mul_comm d a] at hmul
    omega
  have hge : a ≤ n / d + 1 := by
    by_contra hlt
    have hmul : d * (n / d + 2) ≤ d * a := Nat.mul_le_mul_left d (by omega)
    rw [Nat.mul_add, Nat.mul_comm d a] at hmul
    omega
  omega

/-- The nearest integer: no further than a half away, and even if it is just a half. -/
lemma roundQuotient_eq (hd : 0 < d) (lower : (a : ℚ) - 1 / 2 ≤ n / d) (upper : (n : ℚ) / d ≤ a + 1 / 2)
    (tie : a % 2 = 0 ∨ (a : ℚ) - 1 / 2 < n / d ∧ (n : ℚ) / d < a + 1 / 2) : roundQuotient n d = a := by
  have hdq : (0 : ℚ) < d := by exact_mod_cast hd
  have hlower : 2 * (a * d) ≤ 2 * n + d := by
    rw [le_div_iff₀ hdq] at lower
    have hle : (2 * (a * d) : ℚ) ≤ 2 * n + d := by linarith
    exact_mod_cast hle
  have hupper : 2 * n ≤ 2 * (a * d) + d := by
    rw [div_le_iff₀ hdq] at upper
    have hle : (2 * n : ℚ) ≤ 2 * (a * d) + d := by linarith
    exact_mod_cast hle
  have htie : a % 2 = 0 ∨ 2 * (a * d) < 2 * n + d ∧ 2 * n < 2 * (a * d) + d := by
    refine tie.imp_right fun ⟨hl, hu⟩ => ?_
    rw [lt_div_iff₀ hdq] at hl
    rw [div_lt_iff₀ hdq] at hu
    have hl' : (2 * (a * d) : ℚ) < 2 * n + d := by linarith
    have hu' : (2 * n : ℚ) < 2 * (a * d) + d := by linarith
    exact ⟨by exact_mod_cast hl', by exact_mod_cast hu'⟩
  have hn : d * (n / d) + n % d = n := Nat.div_add_mod n d
  have hmod : n % d < d := Nat.mod_lt n hd
  rcases div_or_div_add_one hd hlower hupper with hq | hq
  · rw [hq, Nat.mul_comm] at hn
    simp only [roundQuotient, hq]
    split_ifs <;> omega
  · have hn' : a * d = d * (n / d) + d := by rw [← hq, Nat.mul_comm, Nat.mul_add, Nat.mul_one]
    simp only [roundQuotient]
    split_ifs <;> omega

/-- Both parts of a ratio have their leading bit, so that the quotient has its own in their distance or one below. -/
lemma leading_bit (hnum : 0 < num) (hden : 0 < den) {e : ℤ} (he : e = (num.log2 : ℤ) - den.log2 - 52) :
    2 ^ 51 * (2 : ℚ) ^ e ≤ num / den ∧ (num : ℚ) / den < 2 ^ 53 * 2 ^ e := by
  have hdq : (0 : ℚ) < den := by exact_mod_cast hden
  have hunit : (0 : ℚ) < 2 ^ e := by positivity
  have hsplit : (2 : ℚ) ^ num.log2 = 2 ^ 52 * 2 ^ e * 2 ^ den.log2 := by
    rw [← zpow_natCast, ← zpow_natCast, ← zpow_natCast, ← zpow_add₀ two_ne_zero, ← zpow_add₀ two_ne_zero, he]
    congr 1
    push_cast
    ring
  constructor
  · have hnumle : (2 : ℚ) ^ num.log2 ≤ num := by exact_mod_cast Nat.log2_self_le hnum.ne'
    have hdenlt : (den : ℚ) < 2 ^ (den.log2 + 1) := by exact_mod_cast Nat.lt_log2_self
    rw [le_div_iff₀ hdq]
    rw [hsplit] at hnumle
    rw [pow_succ] at hdenlt
    nlinarith
  · have hnumlt : (num : ℚ) < 2 ^ (num.log2 + 1) := by exact_mod_cast Nat.lt_log2_self
    have hdenle : (2 : ℚ) ^ den.log2 ≤ den := by exact_mod_cast Nat.log2_self_le hden.ne'
    rw [div_lt_iff₀ hdq]
    rw [pow_succ, hsplit] at hnumlt
    nlinarith

lemma scaled_lt_iff (hden : 0 < den) (m : ℕ) (e : ℤ) :
    (scaled num den e).1 < m * (scaled num den e).2 ↔ (num : ℚ) / den < m * 2 ^ e := by
  have hunit : (0 : ℚ) < 2 ^ e := by positivity
  have hpos : (0 : ℚ) < (scaled num den e).2 := by exact_mod_cast scaled_pos hden e
  rw [← div_lt_iff₀ hunit, ← scaled_value, div_lt_iff₀ hpos]
  exact_mod_cast Iff.rfl

/-- The mantissa at the exponent of a ratio has 53 bits, or fewer at the least exponent. -/
lemma exponentOf_spec (hnum : 0 < num) (hden : 0 < den) :
    (num : ℚ) / den < 2 ^ 53 * (2 : ℚ) ^ exponentOf num den ∧ minExponent ≤ exponentOf num den ∧
      (exponentOf num den = minExponent ∨ 2 ^ 52 * (2 : ℚ) ^ exponentOf num den ≤ num / den) := by
  set e : ℤ := (num.log2 : ℤ) - den.log2 - 52 with he
  obtain ⟨habove, hbelow⟩ := leading_bit hnum hden he
  have hstep : (2 : ℚ) ^ (e - 1) = 2 ^ e / 2 := by rw [zpow_sub_one₀ two_ne_zero]; ring
  have hscaled : (scaled num den e).1 < twoPower 52 * (scaled num den e).2 ↔ (num : ℚ) / den < 2 ^ 52 * 2 ^ e := by
    rw [scaled_lt_iff hden]
    norm_num [twoPower]
  obtain ⟨e', he', hlt, hle⟩ : ∃ e' : ℤ,
      (if (scaled num den e).1 < twoPower 52 * (scaled num den e).2 then e - 1 else e) = e' ∧
      (num : ℚ) / den < 2 ^ 53 * 2 ^ e' ∧ 2 ^ 52 * 2 ^ e' ≤ (num : ℚ) / den := by
    refine ⟨_, rfl, ?_⟩
    split_ifs with hless
    · rw [hstep]
      exact ⟨by linarith [hscaled.1 hless], by linarith⟩
    · exact ⟨hbelow, not_lt.1 (mt hscaled.2 hless)⟩
  have hexponent : exponentOf num den = if e' < minExponent then minExponent else e' := by
    simp only [exponentOf, ← he, he']
  rw [hexponent]
  split_ifs with hmin
  · have hmono : (2 : ℚ) ^ e' ≤ 2 ^ minExponent := zpow_le_zpow_right₀ one_le_two hmin.le
    exact ⟨by linarith, le_rfl, .inl rfl⟩
  · exact ⟨hlt, not_lt.1 hmin, .inr hle⟩

lemma neighbourhood_cases (hx : x.Canonical) (hm : x.mantissa ≠ 0) :
    ((x.neighbourhood.2 : ℕ) : ℚ) = 4 * x.mantissa + 2 ∧
      ((x.mantissa = 2 ^ 52 ∧ minExponent < x.exponent ∧ (x.neighbourhood.1 : ℚ) = 4 * x.mantissa - 1) ∨
        (x.mantissa = 2 ^ 52 → x.exponent = minExponent) ∧ (x.neighbourhood.1 : ℚ) = 4 * x.mantissa - 2) := by
  have hpos : 1 ≤ x.mantissa := Nat.pos_of_ne_zero hm
  refine ⟨by simp [neighbourhood], ?_⟩
  by_cases hlow : x.mantissa = 2 ^ 52 ∧ minExponent < x.exponent
  · refine .inl ⟨hlow.1, hlow.2, ?_⟩
    have hcond : x.mantissa = twoPower 52 ∧ x.exponent > minExponent := hlow
    simp only [neighbourhood, if_pos hcond]
    push_cast [Nat.cast_sub (show 1 ≤ 4 * x.mantissa by omega)]
    ring
  · refine .inr ⟨fun h => le_antisymm (not_lt.1 fun hlt => hlow ⟨h, hlt⟩) hx.least_le, ?_⟩
    have hcond : ¬ (x.mantissa = twoPower 52 ∧ x.exponent > minExponent) := hlow
    simp only [neighbourhood, if_neg hcond]
    push_cast [Nat.cast_sub (show 2 ≤ 4 * x.mantissa by omega)]
    ring

lemma Near.pos {q : ℚ} (h : x.Near q) (hx : x.Canonical) (hm : x.mantissa ≠ 0) : 0 < q := by
  obtain ⟨-, hlow⟩ := neighbourhood_cases hx hm
  have hpos : (1 : ℚ) ≤ x.mantissa := by exact_mod_cast Nat.pos_of_ne_zero hm
  have hend : (2 : ℚ) ≤ x.neighbourhood.1 := by rcases hlow with ⟨-, -, h⟩ | ⟨-, h⟩ <;> linarith
  have hunit : (0 : ℚ) < 2 ^ x.exponent := by positivity
  have hlower := h.lower
  nlinarith

lemma Near.num_pos (h : x.Near (num / den)) (hx : x.Canonical) (hm : x.mantissa ≠ 0) : 0 < num := by
  rcases Nat.eq_zero_or_pos num with rfl | hnum
  · simpa using h.pos hx hm
  · exact hnum

lemma Near.exponentOf_le (h : x.Near (num / den)) (hx : x.Canonical) (hm : x.mantissa ≠ 0) (hden : 0 < den) :
    exponentOf num den ≤ x.exponent := by
  obtain ⟨hhigh, -⟩ := neighbourhood_cases hx hm
  obtain ⟨-, -, hge⟩ := exponentOf_spec (h.num_pos hx hm) hden
  have hupper := h.upper
  rw [hhigh] at hupper
  rcases hge with hmin | hle
  · exact hmin ▸ hx.least_le
  · by_contra hgt
    have hmlt : (x.mantissa : ℚ) + 1 ≤ 2 ^ 53 := by exact_mod_cast hx.mantissa_lt
    have hunit : (0 : ℚ) < 2 ^ x.exponent := by positivity
    have hstep : (2 : ℚ) ^ (x.exponent + 1) ≤ 2 ^ exponentOf num den :=
      zpow_le_zpow_right₀ one_le_two (by omega)
    rw [zpow_add_one₀ two_ne_zero] at hstep
    nlinarith

/-- At the exponent of the number its mantissa is the nearest integer. -/
lemma Near.round (h : x.Near (num / den)) (hx : x.Canonical) (hm : x.mantissa ≠ 0) (hden : 0 < den) :
    roundQuotient (scaled num den x.exponent).1 (scaled num den x.exponent).2 = x.mantissa := by
  obtain ⟨hhigh, hlow⟩ := neighbourhood_cases hx hm
  obtain ⟨hlower, hupper, hinside⟩ := h
  rw [hhigh] at hupper hinside
  have hend : 4 * (x.mantissa : ℚ) - 2 ≤ x.neighbourhood.1 := by rcases hlow with ⟨-, -, h⟩ | ⟨-, h⟩ <;> linarith
  have hunit : (0 : ℚ) < 2 ^ x.exponent := by positivity
  refine roundQuotient_eq (scaled_pos hden _) ?_ ?_ ?_ <;> rw [scaled_value]
  · rw [le_div_iff₀ hunit]
    nlinarith
  · rw [div_le_iff₀ hunit]
    linarith
  · refine hinside.imp_right fun ⟨hl, hu⟩ => ⟨?_, ?_⟩
    · rw [lt_div_iff₀ hunit]
      nlinarith
    · rw [div_lt_iff₀ hunit]
      linarith

/-- A ratio with a lower exponent than the number lies just below a power of two, which is the number. -/
lemma Near.just_below (h : x.Near (num / den)) (hx : x.Canonical) (hm : x.mantissa ≠ 0) (hden : 0 < den)
    (hless : exponentOf num den < x.exponent) :
    x.mantissa = 2 ^ 52 ∧ x.exponent = exponentOf num den + 1 ∧
      (2 ^ 53 - 1 / 2) * (2 : ℚ) ^ exponentOf num den ≤ num / den := by
  obtain ⟨-, hlow⟩ := neighbourhood_cases hx hm
  obtain ⟨hlt, hmin, -⟩ := exponentOf_spec (h.num_pos hx hm) hden
  have hlower := h.lower
  set e := exponentOf num den
  have hunit : (0 : ℚ) < 2 ^ e := by positivity
  have hstep : (2 : ℚ) ^ (e + 1) ≤ 2 ^ x.exponent := zpow_le_zpow_right₀ one_le_two (by omega)
  rw [zpow_add_one₀ two_ne_zero] at hstep
  have hnormal : 2 ^ 52 ≤ x.mantissa := hx.normal.resolve_right (by omega)
  obtain ⟨hmantissa, hend⟩ : x.mantissa = 2 ^ 52 ∧ (x.neighbourhood.1 : ℚ) = 4 * x.mantissa - 1 := by
    rcases hlow with ⟨hpower, -, hend⟩ | ⟨hpower, hend⟩
    · exact ⟨hpower, hend⟩
    · exfalso
      have hgt : (2 : ℚ) ^ 52 + 1 ≤ x.mantissa := by
        have hne : 2 ^ 52 ≠ x.mantissa := fun heq => by have := hpower heq.symm; omega
        exact_mod_cast Nat.lt_of_le_of_ne hnormal hne
      rw [hend] at hlower
      nlinarith
  have hcast : (x.mantissa : ℚ) = 2 ^ 52 := by exact_mod_cast hmantissa
  rw [hend, hcast] at hlower
  have hexponent : x.exponent = e + 1 := by
    by_contra hne
    have htwo : (2 : ℚ) ^ (e + 2) ≤ 2 ^ x.exponent := zpow_le_zpow_right₀ one_le_two (by omega)
    rw [zpow_add₀ two_ne_zero] at htwo
    norm_num at htwo
    nlinarith
  rw [hexponent, zpow_add_one₀ two_ne_zero] at hlower
  exact ⟨hmantissa, hexponent, by linarith⟩

lemma ofRatio?_of_round (hnum : num ≠ 0)
    (hm : roundQuotient (scaled num den (exponentOf num den)).1 (scaled num den (exponentOf num den)).2 = m) :
    ofRatio? negative num den =
      let carried := if m = twoPower 53 then (twoPower 52, exponentOf num den + 1) else (m, exponentOf num den)
      if carried.2 > maxExponent then none else some ⟨negative, carried.1, carried.2⟩ := by
  rw [ofRatio?, if_neg hnum, ← hm]

/-- A number is the nearest one to what lies in its neighbourhood. -/
theorem ofRatio?_of_near (hx : x.Canonical) (hm : x.mantissa ≠ 0) (hden : 0 < den) (h : x.Near (num / den))
    (negative : Bool) : ofRatio? negative num den = some { x with negative } := by
  have hnum := h.num_pos hx hm
  have hrange : ¬ x.exponent > maxExponent := not_lt.2 hx.le_largest
  rcases (h.exponentOf_le hx hm hden).eq_or_lt with heq | hless
  · have hround := h.round hx hm hden
    have hcarry : x.mantissa ≠ twoPower 53 := hx.mantissa_lt.ne
    rw [← heq] at hround
    rw [ofRatio?_of_round hnum.ne' hround, if_neg hcarry, heq]
    exact if_neg hrange
  · obtain ⟨hmantissa, hexponent, hge⟩ := h.just_below hx hm hden hless
    obtain ⟨hlt, -, -⟩ := exponentOf_spec hnum hden
    have hcast : ((twoPower 53 : ℕ) : ℚ) = 2 ^ 53 := by norm_num [twoPower]
    have hunit : (0 : ℚ) < 2 ^ exponentOf num den := by positivity
    -- The mantissa is rounded up to the power of two and carried over.
    have hround : roundQuotient (scaled num den (exponentOf num den)).1 (scaled num den (exponentOf num den)).2 =
        twoPower 53 := by
      refine roundQuotient_eq (scaled_pos hden _) ?_ ?_ (.inl (by decide)) <;> rw [scaled_value, hcast]
      · rw [le_div_iff₀ hunit]
        exact hge
      · rw [div_le_iff₀ hunit]
        linarith
    have hmantissa' : twoPower 52 = x.mantissa := hmantissa.symm
    rw [ofRatio?_of_round hnum.ne' hround, if_pos rfl, ← hexponent, hmantissa']
    exact if_neg hrange

/-! ## The search for the fewest digits -/

/-- Both sides of a comparison in the search are whole numbers over one denominator. -/
lemma exists_sides_eq_div (num n : ℕ) (e : ℤ) (hden : 0 < den) :
    ∃ d : ℚ, 0 < d ∧ n * (2 : ℚ) ^ e = (n * twoPower e.toNat * den : ℕ) / d ∧
      4 * ((num : ℚ) / den) = (num * (4 * twoPower (-e).toNat) : ℕ) / d := by
  have hdenq : (0 : ℚ) < den := by exact_mod_cast hden
  have hpower : (0 : ℚ) < twoPower (-e).toNat := by exact_mod_cast twoPower_pos _
  refine ⟨den * twoPower (-e).toNat, mul_pos hdenq hpower, ?_, ?_⟩
  · rw [← twoPower_div]
    push_cast
    field_simp
  · push_cast
    field_simp

lemma le_iff_ratio_le (num low : ℕ) (e : ℤ) (hden : 0 < den) :
    low * twoPower e.toNat * den ≤ num * (4 * twoPower (-e).toNat) ↔ low * (2 : ℚ) ^ e ≤ 4 * (num / den) := by
  obtain ⟨d, hd, hside, hratio⟩ := exists_sides_eq_div num low e hden
  rw [hside, hratio, div_le_div_iff_of_pos_right hd, Nat.cast_le]

lemma ratio_le_iff (num high : ℕ) (e : ℤ) (hden : 0 < den) :
    num * (4 * twoPower (-e).toNat) ≤ high * twoPower e.toNat * den ↔ 4 * ((num : ℚ) / den) ≤ high * (2 : ℚ) ^ e := by
  obtain ⟨d, hd, hside, hratio⟩ := exists_sides_eq_div num high e hden
  rw [hside, hratio, div_le_div_iff_of_pos_right hd, Nat.cast_le]

lemma rounds_iff (hden : 0 < den) : rounds x num den = true ↔ x.Near (num / den) := by
  have hl := le_iff_ratio_le num x.neighbourhood.1 x.exponent hden
  have hu := ratio_le_iff num x.neighbourhood.2 x.exponent hden
  have hl' := (ratio_le_iff num x.neighbourhood.1 x.exponent hden).not
  have hu' := (le_iff_ratio_le num x.neighbourhood.2 x.exponent hden).not
  rw [not_le, not_le] at hl' hu'
  simp only [rounds]
  split_ifs with heven
  · rw [Bool.and_eq_true, decide_eq_true_iff, decide_eq_true_iff, hl, hu]
    exact ⟨fun h => ⟨h.1, h.2, .inl heven⟩, fun h => ⟨h.lower, h.upper⟩⟩
  · rw [Bool.and_eq_true, decide_eq_true_iff, decide_eq_true_iff, hl', hu']
    exact ⟨fun h => ⟨h.1.le, h.2.le, .inr h⟩, fun h => h.inside.resolve_left heven⟩

lemma rounds_gridPoint_iff (count : ℕ) (place : ℤ) :
    rounds x (gridPoint count place).1 (gridPoint count place).2 = true ↔ x.Near (count * (10 : ℚ) ^ place) := by
  rw [rounds_iff (show 0 < (gridPoint count place).2 from tenPower_pos _), gridPoint_value]

lemma near_of_gridHit? {count : ℕ} (h : gridHit? x place = some count) : x.Near (count * (10 : ℚ) ^ place) := by
  rw [← rounds_gridPoint_iff]
  simp only [gridHit?] at h
  split at h
  · next hbelow habove =>
    split_ifs at h
    · exact Option.some.inj h ▸ hbelow
    · exact Option.some.inj h ▸ habove
  · next hbelow _ => exact Option.some.inj h ▸ hbelow
  · next _ habove => exact Option.some.inj h ▸ habove
  · cases h

/-- One of the two points around a number is in its neighbourhood if the grid is finer than that. -/
lemma near_or_near {v : ℚ} (hv : v = x.mantissa * 2 ^ x.exponent) (hx : x.Canonical) (hm : x.mantissa ≠ 0)
    {low grid : ℚ} (hle : low ≤ v) (hlt : v < low + grid) (hfine : grid < 2 ^ x.exponent)
    (hpower : x.mantissa = 2 ^ 52 → 4 * grid < 3 * 2 ^ x.exponent) : x.Near low ∨ x.Near (low + grid) := by
  obtain ⟨hhigh, hlow⟩ := neighbourhood_cases hx hm
  have hunit : (0 : ℚ) < 2 ^ x.exponent := by positivity
  have strictly {q : ℚ} (hl : x.neighbourhood.1 * (2 : ℚ) ^ x.exponent < 4 * q)
      (hu : 4 * q < (4 * x.mantissa + 2) * (2 : ℚ) ^ x.exponent) : x.Near q := by
    rw [← hhigh] at hu
    exact ⟨hl.le, hu.le, .inr ⟨hl, hu⟩⟩
  rcases hlow with ⟨hmantissa, -, hend⟩ | ⟨-, hend⟩
  · have hgrid := hpower hmantissa
    by_cases hnear : 4 * (v - low) < 2 ^ x.exponent
    · exact .inl (strictly (by rw [hend]; linarith) (by linarith))
    · exact .inr (strictly (by rw [hend]; linarith) (by linarith))
  · by_cases hnear : 2 * (v - low) < 2 ^ x.exponent
    · exact .inl (strictly (by rw [hend]; linarith) (by linarith))
    · exact .inr (strictly (by rw [hend]; linarith) (by linarith))

lemma gridHit?_isSome (hx : x.Canonical) (hm : x.mantissa ≠ 0) (hfine : (10 : ℚ) ^ place < 2 ^ x.exponent)
    (hpower : x.mantissa = 2 ^ 52 → 4 * (10 : ℚ) ^ place < 3 * 2 ^ x.exponent) : (gridHit? x place).isSome := by
  set below := x.ratio.1 * tenPower (-place).toNat / (x.ratio.2 * tenPower place.toNat) with hbelow
  have hgrid : (0 : ℚ) < 10 ^ place := by positivity
  have hpos : 0 < x.ratio.2 * tenPower place.toNat := Nat.mul_pos (twoPower_pos _) (tenPower_pos _)
  have hquotient : ((x.ratio.1 * tenPower (-place).toNat : ℕ) : ℚ) / (x.ratio.2 * tenPower place.toNat : ℕ) =
      x.mantissa * (2 : ℚ) ^ x.exponent / 10 ^ place := by
    rw [← ratio_value, ← tenPower_div]
    push_cast
    field_simp
  have hle : below * (10 : ℚ) ^ place ≤ x.mantissa * 2 ^ x.exponent := by
    rw [← le_div_iff₀ hgrid, ← hquotient]
    exact Nat.cast_div_le
  have hlt : x.mantissa * (2 : ℚ) ^ x.exponent < below * 10 ^ place + 10 ^ place := by
    have hsucc := Nat.lt_mul_div_succ (x.ratio.1 * tenPower (-place).toNat) hpos
    rw [← hbelow, Nat.mul_comm (x.ratio.2 * tenPower place.toNat)] at hsucc
    have hposq : (0 : ℚ) < (x.ratio.2 * tenPower place.toNat : ℕ) := by exact_mod_cast hpos
    rw [← add_one_mul, ← div_lt_iff₀ hgrid, ← hquotient, div_lt_iff₀ hposq]
    exact_mod_cast hsucc
  have hcast : below * (10 : ℚ) ^ place + 10 ^ place = (below + 1 : ℕ) * (10 : ℚ) ^ place := by
    push_cast
    ring
  have hnear := near_or_near rfl hx hm hle hlt hfine hpower
  rw [hcast, ← rounds_gridPoint_iff, ← rounds_gridPoint_iff] at hnear
  simp only [gridHit?, ← hbelow]
  split
  · split_ifs <;> rfl
  · rfl
  · rfl
  · next hbelow habove =>
    simp [hbelow, habove] at hnear

lemma lt_tenPower_digitCount (n : ℕ) : n < 10 ^ digitCount n := by
  induction n using Nat.strongRecOn with
  | _ n ih =>
    rw [digitCount, Nat.toDigits_eq_if (by decide)]
    split_ifs with hlt
    · simpa using hlt
    · have hrest := ih (n / 10) (by omega)
      rw [List.length_append, List.length_singleton, pow_succ]
      rw [digitCount] at hrest
      omega

lemma tenPower_digitCount_le {n : ℕ} (hn : n ≠ 0) : 10 ^ (digitCount n - 1) ≤ n := by
  induction n using Nat.strongRecOn with
  | _ n ih =>
    rw [digitCount, Nat.toDigits_eq_if (by decide)]
    split_ifs with hlt
    · rw [List.length_singleton, Nat.sub_self, pow_zero]
      omega
    · have hrest := ih (n / 10) (by omega) (by omega)
      have hlen : 0 < digitCount (n / 10) := List.length_pos_of_ne_nil Nat.toDigits_ne_nil
      rw [List.length_append, List.length_singleton, Nat.add_sub_cancel]
      rw [digitCount] at hrest hlen
      have hsplit : 10 ^ (Nat.toDigits 10 (n / 10)).length = 10 ^ ((Nat.toDigits 10 (n / 10)).length - 1) * 10 := by
        rw [← pow_succ]
        congr 1
        omega
      omega

/-- The first digit of a ratio is not beyond it. -/
lemma tenPower_decimalExponent_le (hnum : 0 < num) (hden : 0 < den) :
    (10 : ℚ) ^ decimalExponent num den ≤ num / den := by
  have hnumq : (0 : ℚ) < num := by exact_mod_cast hnum
  have hdenq : (0 : ℚ) < den := by exact_mod_cast hden
  simp only [decimalExponent]
  split_ifs with hle hexact
  · have hne : num / den ≠ 0 := (Nat.div_pos hle hden).ne'
    have hlen : 1 ≤ digitCount (num / den) := List.length_pos_of_ne_nil Nat.toDigits_ne_nil
    have hpower : (10 : ℚ) ^ ((digitCount (num / den) : ℤ) - 1) = ((10 ^ (digitCount (num / den) - 1) : ℕ) : ℚ) := by
      rw [← Nat.cast_one, ← Nat.cast_sub hlen, zpow_natCast]
      push_cast
      rfl
    rw [hpower]
    calc ((10 ^ (digitCount (num / den) - 1) : ℕ) : ℚ) ≤ (num / den : ℕ) := by
          exact_mod_cast tenPower_digitCount_le hne
      _ ≤ num / den := Nat.cast_div_le
  · have hlen : 1 ≤ digitCount (den / num) := List.length_pos_of_ne_nil Nat.toDigits_ne_nil
    have hpower : (10 : ℚ) ^ (1 - (digitCount (den / num) : ℤ)) = ((10 ^ (digitCount (den / num) - 1) : ℕ) : ℚ)⁻¹ := by
      rw [← neg_sub, zpow_neg, ← Nat.cast_one, ← Nat.cast_sub hlen, zpow_natCast]
      push_cast
      rfl
    have hexactq : (den : ℚ) ≤ num * (10 ^ (digitCount (den / num) - 1) : ℕ) := by exact_mod_cast hexact
    rw [hpower, inv_le_comm₀ (by positivity) (by positivity), inv_div, div_le_iff₀ hnumq, mul_comm]
    exact hexactq
  · have hlt : den < num * 10 ^ digitCount (den / num) :=
      (Nat.div_lt_iff_lt_mul hnum).1 (lt_tenPower_digitCount _) |>.trans_eq (Nat.mul_comm _ _)
    have hltq : (den : ℚ) < num * 10 ^ digitCount (den / num) := by exact_mod_cast hlt
    rw [zpow_neg, zpow_natCast, inv_le_comm₀ (by positivity) (by positivity), inv_div, div_le_iff₀ hnumq, mul_comm]
    exact hltq.le

lemma stripZeros_value (fuel n : ℕ) (place : ℤ) :
    ((stripZeros fuel n place).1 : ℚ) * (10 : ℚ) ^ (stripZeros fuel n place).2 = n * (10 : ℚ) ^ place := by
  induction fuel generalizing n place with
  | zero => rfl
  | succ fuel ih =>
    rw [stripZeros]
    split_ifs with h
    · have hten : (n : ℚ) = (n / 10 : ℕ) * 10 := by
        exact_mod_cast (Nat.div_mul_cancel (Nat.dvd_of_mod_eq_zero h.2)).symm
      rw [ih, hten, zpow_add_one₀ (by decide)]
      ring
    · rfl

lemma near_searchGrids {exponent : ℤ} {more digits : ℕ} (last : ℕ) (hle : digits ≤ last) (hlt : last < digits + more)
    (hhit : (gridHit? x (exponent - last)).isSome) :
    x.Near ((searchGrids x exponent more digits).1 * (10 : ℚ) ^ (searchGrids x exponent more digits).2) := by
  induction more generalizing digits with
  | zero => omega
  | succ more ih =>
    rw [searchGrids]
    split
    · next count hcount =>
      rw [stripZeros_value]
      exact near_of_gridHit? hcount
    · next hnone =>
      have hne : digits ≠ last := by
        rintro rfl
        simp [hnone] at hhit
      exact ih (by omega) (by omega)

/-- The digits of a number are those of a decimal in its neighbourhood. -/
theorem near_shortest (hx : x.Canonical) (hm : x.mantissa ≠ 0) :
    x.Near (x.shortest.1 * (10 : ℚ) ^ x.shortest.2) := by
  have hshortest : x.shortest = searchGrids x (decimalExponent x.ratio.1 x.ratio.2) 17 0 := by
    rw [shortest, if_neg (by simpa [isZero] using hm)]
  rw [hshortest]
  have hnum : 0 < x.ratio.1 := Nat.mul_pos (Nat.pos_of_ne_zero hm) (twoPower_pos _)
  have hfirst := tenPower_decimalExponent_le hnum (twoPower_pos (-x.exponent).toNat)
  rw [show twoPower (-x.exponent).toNat = x.ratio.2 from rfl, ratio_value] at hfirst
  set exponent := decimalExponent x.ratio.1 x.ratio.2
  have hunit : (0 : ℚ) < 2 ^ x.exponent := by positivity
  have hmlt : (x.mantissa : ℚ) < 2 ^ 53 := by exact_mod_cast hx.mantissa_lt
  have hgrid : (10 : ℚ) ^ (exponent - (16 : ℕ)) * 10 ^ 16 = 10 ^ exponent := by
    rw [zpow_sub₀ (by norm_num), zpow_natCast]
    field_simp
  refine near_searchGrids 16 (by omega) (by omega) (gridHit?_isSome hx hm ?_ ?_)
  · nlinarith
  · intro hpower
    have hcast : (x.mantissa : ℚ) = 2 ^ 52 := by exact_mod_cast hpower
    rw [hcast] at hfirst
    nlinarith

/-- A ratio that is the written decimal of a number is read as the number. -/
theorem ofRatio?_of_shortest (hx : x.Canonical) (hden : 0 < den)
    (h : (num : ℚ) / den = x.shortest.1 * (10 : ℚ) ^ x.shortest.2) :
    ofRatio? x.negative num den = some x := by
  by_cases hm : x.mantissa = 0
  · have hnum : num = 0 := by
      have hzero : x.shortest = (0, 0) := by rw [shortest, isZero, hm]; rfl
      rw [hzero] at h
      have hdenq : (den : ℚ) ≠ 0 := by exact_mod_cast hden.ne'
      simpa [hdenq] using h
    have hexponent : x.exponent = minExponent := hx.normal.resolve_left (by omega)
    rw [ofRatio?, if_pos hnum, zero, ← hexponent, ← hm]
  · exact ofRatio?_of_near hx hm hden (h ▸ near_shortest hx hm) x.negative

end UiCatalog.Binary64
