import Mathlib.Data.List.DropRight
import UiCatalog.Json.Written

/-!
# The grammar of JSON

Which texts are JSON and what tree each of them has, said without a reader. The reader takes just these texts,
and the tree that it gives is the one that the grammar gives.
-/
namespace UiCatalog.Json

open Written

/-! ## Literals -/

/-- White space, or nothing at all. -/
def IsGap (w : List Char) : Prop := ∀ c ∈ w, isSpace c = true

/-- What stands between the quotes of a string literal. -/
inductive PiecesText : List Piece → List Char → Prop
  | nil : PiecesText [] []
  | plain {c ps t} : c ≠ '"' → c ≠ '\\' → ¬ c.toNat < 0x20 → PiecesText ps t → PiecesText (.char c :: ps) (c :: t)
  | short {e c ps t} : shortEscape? e = some c → PiecesText ps t → PiecesText (.char c :: ps) ('\\' :: e :: t)
  | unit {h₁ h₂ h₃ h₄ n ps t} : hexUnit? h₁ h₂ h₃ h₄ = some n → PiecesText ps t →
      PiecesText (.unit n :: ps) ('\\' :: 'u' :: h₁ :: h₂ :: h₃ :: h₄ :: t)

/-- One digit or more. -/
def IsDigits (ds : List Char) : Prop := ds ≠ [] ∧ ∀ c ∈ ds, c.isDigit = true

inductive FractionText : Option (List Char) → List Char → Prop
  | none : FractionText none []
  | some {ds} : IsDigits ds → FractionText (some ds) ('.' :: ds)

inductive SignText : Bool → List Char → Prop
  | minus : SignText true ['-']
  | plus : SignText false ['+']
  | bare : SignText false []

inductive ExponentText : Option (Bool × List Char) → List Char → Prop
  | none : ExponentText none []
  | some {e negative sign ds} : e = 'e' ∨ e = 'E' → SignText negative sign → IsDigits ds →
      ExponentText (some (negative, ds)) (e :: (sign ++ ds))

/-- The text of a number; a zero before the point stands alone. -/
inductive NumeralText : Numeral → List Char → Prop
  | mk (negative : Bool) {whole fraction exponent f e} : IsDigits whole → (1 < whole.length → whole.head? ≠ some '0') →
      FractionText fraction f → ExponentText exponent e →
      NumeralText ⟨negative, whole, fraction, exponent⟩ ((if negative then ['-'] else []) ++ (whole ++ (f ++ e)))

/-! ## Values -/

mutual

inductive TreeText : Written → List Char → Prop
  | null : TreeText .null "null".toList
  | bool (b : Bool) : TreeText (.bool b) (if b then "true" else "false").toList
  | number {n t} : NumeralText n t → TreeText (.number n) t
  | string {ps t} : PiecesText ps t → TreeText (.string ps) ('"' :: (t ++ ['"']))
  | noItems {w} : IsGap w → TreeText (.array []) ('[' :: (w ++ [']']))
  | array {items t} : ItemTreesText items t → TreeText (.array items) ('[' :: (t ++ [']']))
  | noMembers {w} : IsGap w → TreeText (.object []) ('\x7b' :: (w ++ ['\x7d']))
  | object {members t} : MemberTreesText members t → TreeText (.object members) ('\x7b' :: (t ++ ['\x7d']))

inductive ItemTreesText : List Written → List Char → Prop
  | last {v w t w'} : IsGap w → TreeText v t → IsGap w' → ItemTreesText [v] (w ++ (t ++ w'))
  | cons {v vs w t w' rest} : IsGap w → TreeText v t → IsGap w' → ItemTreesText vs rest →
      ItemTreesText (v :: vs) (w ++ (t ++ (w' ++ ',' :: rest)))

inductive MemberTreeText : List Piece × Written → List Char → Prop
  | mk {key v w k w' u t} : IsGap w → PiecesText key k → IsGap w' → IsGap u → TreeText v t →
      MemberTreeText (key, v) (w ++ ('"' :: (k ++ '"' :: (w' ++ ':' :: (u ++ t)))))

inductive MemberTreesText : List (List Piece × Written) → List Char → Prop
  | last {m t w} : MemberTreeText m t → IsGap w → MemberTreesText [m] (t ++ w)
  | cons {m ms t w rest} : MemberTreeText m t → IsGap w → MemberTreesText ms rest →
      MemberTreesText (m :: ms) (t ++ (w ++ ',' :: rest))

end

/-- The text is JSON and has the tree. -/
def IsText (text : String) (w : Written) : Prop :=
  ∃ before t behind, text.toList = before ++ (t ++ behind) ∧ IsGap before ∧ TreeText w t ∧ IsGap behind

variable {s t w rest : List Char} {c : Char} {bound : Nat}

/-! ## White space -/

lemma isGap_nil : IsGap [] := fun _ h => absurd h List.not_mem_nil

lemma IsGap.append (hs : IsGap s) (ht : IsGap t) : IsGap (s ++ t) := fun c hc =>
  (List.mem_append.1 hc).elim (hs c) (ht c)

lemma skipSpace_append (hw : IsGap w) (s : List Char) : skipSpace (w ++ s) = skipSpace s :=
  List.dropWhile_append_of_pos hw

lemma skipSpace_cons (hc : isSpace c = false) (s : List Char) : skipSpace (c :: s) = c :: s :=
  List.dropWhile_cons_of_neg (by simp [hc])

lemma skipSpace_gap_cons (hw : IsGap w) (hc : isSpace c = false) (s t rest : List Char) :
    skipSpace (w ++ (c :: s ++ t) ++ rest) = c :: (s ++ t ++ rest) := by
  rw [List.append_assoc, skipSpace_append hw]
  exact skipSpace_cons hc _

@[simp] lemma skipSpace_skipSpace (s : List Char) : skipSpace (skipSpace s) = skipSpace s :=
  List.dropWhile_idempotent _ s

/-- What is skipped is white space. -/
lemma exists_gap (s : List Char) : ∃ w, IsGap w ∧ s = w ++ skipSpace s :=
  ⟨s.takeWhile isSpace, fun _ hc => List.mem_takeWhile_imp hc, (List.takeWhile_append_dropWhile).symm⟩

lemma exists_gap_of_skipSpace (h : skipSpace s = c :: rest) : ∃ w, IsGap w ∧ s = w ++ c :: rest := by
  obtain ⟨w, hw, hs⟩ := exists_gap s
  exact ⟨w, hw, h ▸ hs⟩

/-! ## String literals -/

lemma readPieces_close (rest : List Char) : readPieces ('"' :: rest) = some ([], rest) := by
  rw [readPieces.eq_def]
  rfl

lemma readPieces_plain (hquote : c ≠ '"') (hback : c ≠ '\\') (hcontrol : ¬ c.toNat < 0x20) (rest : List Char) :
    readPieces (c :: rest) = (readPieces rest).map fun p => (.char c :: p.1, p.2) := by
  rw [readPieces.eq_def]
  cases hrest : readPieces rest <;> simp [*]

lemma readPieces_short {e : Char} (h : shortEscape? e = some c) (rest : List Char) :
    readPieces ('\\' :: e :: rest) = (readPieces rest).map fun p => (.char c :: p.1, p.2) := by
  have hu : e ≠ 'u' := by
    rintro rfl
    cases h
  rw [readPieces.eq_def]
  cases hrest : readPieces rest <;> simp [h, hu, hrest]

lemma readPieces_unit {h₁ h₂ h₃ h₄ : Char} {n : Nat} (h : hexUnit? h₁ h₂ h₃ h₄ = some n) (rest : List Char) :
    readPieces ('\\' :: 'u' :: h₁ :: h₂ :: h₃ :: h₄ :: rest) =
      (readPieces rest).map fun p => (.unit n :: p.1, p.2) := by
  rw [readPieces.eq_def]
  cases hrest : readPieces rest <;> simp [h, hrest]

lemma readPieces_complete {ps : List Piece} (h : PiecesText ps t) (rest : List Char) :
    readPieces (t ++ '"' :: rest) = some (ps, rest) := by
  induction h with
  | nil => exact readPieces_close rest
  | plain hquote hback hcontrol _ ih => rw [List.cons_append, readPieces_plain hquote hback hcontrol, ih]; rfl
  | short he _ ih => rw [List.cons_append, List.cons_append, readPieces_short he, ih]; rfl
  | unit hn _ ih => simp only [List.cons_append, readPieces_unit hn, ih, Option.map_some]

lemma readPieces_sound {ps : List Piece} (h : readPieces s = some (ps, rest)) :
    ∃ t, s = t ++ '"' :: rest ∧ PiecesText ps t := by
  fun_induction readPieces s generalizing ps with
  | case1 | case5 | case6 => cases h
  | case2 cs =>
    cases h
    exact ⟨[], rfl, .nil⟩
  | case3 h₁ h₂ h₃ h₄ cs _ ih =>
    simp only [Option.bind_eq_bind, Option.bind_eq_some_iff, Option.pure_def, Option.some.injEq] at h
    obtain ⟨n, hn, ⟨ps', after⟩, hread, heq⟩ := h
    cases heq
    obtain ⟨t, rfl, ht⟩ := ih hread
    exact ⟨_, rfl, .unit hn ht⟩
  | case4 e cs _ _ ih =>
    simp only [Option.bind_eq_bind, Option.bind_eq_some_iff, Option.pure_def, Option.some.injEq] at h
    obtain ⟨c, hc, ⟨ps', after⟩, hread, heq⟩ := h
    cases heq
    obtain ⟨t, rfl, ht⟩ := ih hread
    exact ⟨_, rfl, .short hc ht⟩
  | case7 c cs hquote hback hcontrol ih =>
    simp only [Option.bind_eq_bind, Option.bind_eq_some_iff, Option.pure_def, Option.some.injEq] at h
    obtain ⟨⟨ps', after⟩, hread, heq⟩ := h
    cases heq
    obtain ⟨t, rfl, ht⟩ := ih hread
    exact ⟨_, rfl, .plain hquote hback hcontrol ht⟩

/-! ## Numerals -/

/-- What may follow a numeral: no character that would go on with it. -/
def EndsNumeral (rest : List Char) : Prop :=
  ∀ c ∈ rest.head?, c.isDigit = false ∧ c ≠ '.' ∧ c ≠ 'e' ∧ c ≠ 'E'

lemma endsNumeral_nil : EndsNumeral [] := by
  rintro c ⟨⟩

lemma endsNumeral_gap (hw : IsGap w) (hrest : EndsNumeral rest) : EndsNumeral (w ++ rest) := by
  cases w with
  | nil => exact hrest
  | cons c w =>
    have hc : isSpace c = true := hw c (.head _)
    simp only [isSpace, Bool.or_eq_true, beq_iff_eq] at hc
    rintro d hd
    obtain rfl : c = d := by simpa using hd
    rcases hc with ((rfl | rfl) | rfl) | rfl <;> decide

lemma endsNumeral_cons (hc : c ∈ [',', ']', '\x7d']) (rest : List Char) : EndsNumeral (c :: rest) := by
  rintro d hd
  obtain rfl : c = d := by simpa using hd
  revert hc
  simp only [List.mem_cons, List.not_mem_nil, or_false]
  rintro (rfl | rfl | rfl) <;> decide

lemma IsDigits.exists_cons {ds : List Char} (h : IsDigits ds) : ∃ c cs, ds = c :: cs ∧ c.isDigit = true := by
  obtain ⟨c, cs, rfl⟩ := List.exists_cons_of_ne_nil h.1
  exact ⟨c, cs, rfl, h.2 c List.mem_cons_self⟩

lemma readDigits?_complete {ds : List Char} (h : IsDigits ds) (hrest : ∀ c ∈ rest.head?, c.isDigit = false) :
    readDigits? (ds ++ rest) = some (ds, rest) := by
  have htake : (ds ++ rest).takeWhile Char.isDigit = ds := by
    rw [List.takeWhile_append_of_pos h.2]
    cases rest with
    | nil => simp
    | cons c rest => simp [hrest c rfl]
  rw [readDigits?, htake]
  simp [h.1]

lemma readDigits?_sound {ds : List Char} (h : readDigits? s = some (ds, rest)) : s = ds ++ rest ∧ IsDigits ds := by
  simp only [readDigits?] at h
  split_ifs at h with hempty
  cases h
  exact ⟨(List.prefix_iff_eq_append.1 (List.takeWhile_prefix _)).symm, fun hnil => hempty (by simp [hnil]),
    fun c hc => List.mem_takeWhile_imp hc⟩

lemma readWhole?_complete {ds : List Char} (h : IsDigits ds) (hzero : 1 < ds.length → ds.head? ≠ some '0')
    (hrest : ∀ c ∈ rest.head?, c.isDigit = false) : readWhole? (ds ++ rest) = some (ds, rest) := by
  have hlone : ¬ (ds.length > 1 ∧ ds.head? = some '0') := fun hboth => hzero hboth.1 hboth.2
  rw [readWhole?, readDigits?_complete h hrest]
  simp only [Option.bind_eq_bind, Option.bind_some, if_neg hlone]

lemma readWhole?_sound {ds : List Char} (h : readWhole? s = some (ds, rest)) :
    s = ds ++ rest ∧ IsDigits ds ∧ (1 < ds.length → ds.head? ≠ some '0') := by
  simp only [readWhole?, Option.bind_eq_bind, Option.bind_eq_some_iff] at h
  obtain ⟨⟨digits, after⟩, hread, h⟩ := h
  split_ifs at h with hzero
  cases h
  obtain ⟨rfl, hdigits⟩ := readDigits?_sound hread
  exact ⟨rfl, hdigits, fun hlong hhead => hzero ⟨hlong, hhead⟩⟩

lemma readFraction?_complete {fraction : Option (List Char)} (h : FractionText fraction t)
    (hrest : ∀ c ∈ rest.head?, c.isDigit = false ∧ c ≠ '.') :
    readFraction? (t ++ rest) = some (fraction, rest) := by
  cases h with
  | none =>
    rw [List.nil_append, readFraction?.eq_def]
    split
    · exact absurd rfl (hrest '.' rfl).2
    · rfl
  | some hds =>
    rw [List.cons_append, readFraction?, readDigits?_complete hds fun c hc => (hrest c hc).1]
    rfl

lemma readFraction?_sound {fraction : Option (List Char)} (h : readFraction? s = some (fraction, rest)) :
    ∃ t, s = t ++ rest ∧ FractionText fraction t := by
  unfold readFraction? at h
  split at h
  · next s =>
    simp only [Option.bind_eq_bind, Option.bind_eq_some_iff, Option.pure_def, Option.some.injEq] at h
    obtain ⟨⟨digits, after⟩, hread, heq⟩ := h
    cases heq
    obtain ⟨rfl, hdigits⟩ := readDigits?_sound hread
    exact ⟨_, rfl, .some hdigits⟩
  · cases h
    exact ⟨[], rfl, .none⟩

lemma readSigned?_complete {negative : Bool} {sign ds : List Char} (hsign : SignText negative sign)
    (hds : IsDigits ds) (hrest : ∀ c ∈ rest.head?, c.isDigit = false) :
    readSigned? (sign ++ (ds ++ rest)) = some ((negative, ds), rest) := by
  cases hsign with
  | minus | plus =>
    rw [List.cons_append, List.nil_append, readSigned?, readDigits?_complete hds hrest]
    rfl
  | bare =>
    obtain ⟨c, cs, rfl, hc⟩ := hds.exists_cons
    have hread := readDigits?_complete hds hrest
    rw [List.nil_append, readSigned?.eq_def]
    split
    · next heq =>
      cases heq
      cases hc
    · next heq =>
      cases heq
      cases hc
    · rw [hread]
      rfl

lemma readSigned?_sound {negative : Bool} {ds : List Char} (h : readSigned? s = some ((negative, ds), rest)) :
    ∃ sign, s = sign ++ (ds ++ rest) ∧ SignText negative sign ∧ IsDigits ds := by
  unfold readSigned? at h
  split at h <;> obtain ⟨⟨digits, after⟩, hread, heq⟩ := Option.map_eq_some_iff.1 h <;> cases heq <;>
    obtain ⟨rfl, hdigits⟩ := readDigits?_sound hread
  · exact ⟨['-'], rfl, .minus, hdigits⟩
  · exact ⟨['+'], rfl, .plus, hdigits⟩
  · exact ⟨[], rfl, .bare, hdigits⟩

lemma readExponent?_complete {exponent : Option (Bool × List Char)} (h : ExponentText exponent t)
    (hrest : EndsNumeral rest) : readExponent? (t ++ rest) = some (exponent, rest) := by
  cases h with
  | none =>
    cases rest with
    | nil => rfl
    | cons c rest =>
      obtain ⟨-, -, he, hE⟩ := hrest c rfl
      rw [List.nil_append, readExponent?, if_neg (by simp [he, hE])]
  | some he hsign hds =>
    rw [List.cons_append, List.append_assoc, readExponent?, if_pos he,
      readSigned?_complete hsign hds fun c hc => (hrest c hc).1]
    rfl

lemma readExponent?_sound {exponent : Option (Bool × List Char)} (h : readExponent? s = some (exponent, rest)) :
    ∃ t, s = t ++ rest ∧ ExponentText exponent t := by
  unfold readExponent? at h
  split at h
  · cases h
    exact ⟨[], rfl, .none⟩
  · split_ifs at h with he
    · obtain ⟨⟨⟨negative, ds⟩, after⟩, hread, heq⟩ := Option.map_eq_some_iff.1 h
      cases heq
      obtain ⟨sign, rfl, hsign, hds⟩ := readSigned?_sound hread
      exact ⟨_, by simp, .some he hsign hds⟩
    · cases h
      exact ⟨[], rfl, .none⟩

/-- Digits end where an exponent or the rest begins. -/
lemma head_exponent {exponent : Option (Bool × List Char)} (h : ExponentText exponent t) (hrest : EndsNumeral rest) :
    ∀ c ∈ (t ++ rest).head?, c.isDigit = false ∧ c ≠ '.' := by
  cases h with
  | none => exact fun c hc => ⟨(hrest c hc).1, (hrest c hc).2.1⟩
  | some he =>
    intro c hc
    cases hc
    rcases he with rfl | rfl <;> decide

lemma head_fraction {fraction : Option (List Char)} (h : FractionText fraction t)
    (hrest : ∀ c ∈ rest.head?, c.isDigit = false ∧ c ≠ '.') : ∀ c ∈ (t ++ rest).head?, c.isDigit = false := by
  cases h with
  | none => exact fun c hc => (hrest c hc).1
  | some =>
    intro c hc
    cases hc
    decide

lemma numeralText_head {n : Numeral} (h : NumeralText n t) :
    ∃ c cs, t = c :: cs ∧ (c.isDigit = true ∨ c = '-') := by
  obtain ⟨negative, hwhole, -, -, -⟩ := h
  cases negative with
  | false =>
    obtain ⟨c, cs, rfl, hc⟩ := hwhole.exists_cons
    exact ⟨c, _, rfl, .inl hc⟩
  | true => exact ⟨'-', _, rfl, .inr rfl⟩

lemma readNumeral?_complete {n : Numeral} (h : NumeralText n t) (hrest : EndsNumeral rest) :
    readNumeral? (t ++ rest) = some (n, rest) := by
  obtain ⟨negative, hwhole, hzero, hfraction, hexponent⟩ := h
  rename_i whole fraction exponent f e
  have hafter := head_exponent hexponent hrest
  have hreadWhole := readWhole?_complete hwhole hzero (head_fraction hfraction hafter)
  have hreadFraction := readFraction?_complete hfraction hafter
  have hreadExponent := readExponent?_complete hexponent hrest
  have hminus : (whole ++ (f ++ (e ++ rest))).head? ≠ some '-' := by
    obtain ⟨c, cs, rfl, hc⟩ := hwhole.exists_cons
    rintro heq
    cases heq
    cases hc
  cases negative with
  | false =>
    have htext : (if false = true then ['-'] else []) ++ (whole ++ (f ++ e)) ++ rest = whole ++ (f ++ (e ++ rest)) := by
      simp
    rw [htext, readNumeral?]
    simp only [hminus, decide_false, if_false, hreadWhole, hreadFraction, hreadExponent, Option.bind_eq_bind,
      Option.bind_some, Option.pure_def]
  | true => simp [readNumeral?, hreadWhole, hreadFraction, hreadExponent]

lemma readNumeral?_sound {n : Numeral} (h : readNumeral? s = some (n, rest)) :
    ∃ t, s = t ++ rest ∧ NumeralText n t := by
  simp only [readNumeral?, Option.bind_eq_bind, Option.bind_eq_some_iff, Option.pure_def, Option.some.injEq] at h
  obtain ⟨⟨whole, s₁⟩, hwhole, ⟨fraction, s₂⟩, hfraction, ⟨exponent, s₃⟩, hexponent, heq⟩ := h
  cases heq
  obtain ⟨hs, hdigits, hzero⟩ := readWhole?_sound hwhole
  obtain ⟨f, rfl, hf⟩ := readFraction?_sound hfraction
  obtain ⟨e, rfl, he⟩ := readExponent?_sound hexponent
  refine ⟨_, ?_, .mk _ hdigits hzero hf he⟩
  by_cases hminus : s.head? = some '-'
  · obtain ⟨s', rfl⟩ := List.head?_eq_some_iff.1 hminus
    simp only [List.head?_cons, if_true, List.drop_one, List.tail_cons] at hs
    simp [hs]
  · rw [if_neg hminus] at hs
    rw [decide_eq_false hminus]
    simpa using hs

/-! ## Reading a text -/

/-- No white space stands before a value, and no bracket closes there. -/
lemma treeText_head {v : Written} (h : TreeText v t) : ∃ c cs, t = c :: cs ∧ isSpace c = false ∧ c ≠ ']' := by
  cases h with
  | null => exact ⟨'n', _, rfl, by decide, by decide⟩
  | bool b => cases b <;> exact ⟨_, _, rfl, by decide, by decide⟩
  | number hn =>
    obtain ⟨c, cs, rfl, hc⟩ := numeralText_head hn
    refine ⟨c, cs, rfl, ?_, ?_⟩
    · by_contra hspace
      simp only [isSpace, Bool.not_eq_false, Bool.or_eq_true, beq_iff_eq] at hspace
      rcases hspace with ((rfl | rfl) | rfl) | rfl <;> exact absurd hc (by decide)
    · rintro rfl
      exact absurd hc (by decide)
  | string => exact ⟨'"', _, rfl, by decide, by decide⟩
  | noItems | array => exact ⟨'[', _, rfl, by decide, by decide⟩
  | noMembers | object => exact ⟨'\x7b', _, rfl, by decide, by decide⟩

lemma itemTreesText_head {vs : List Written} (h : ItemTreesText vs t) :
    ∃ c cs, skipSpace (t ++ rest) = c :: cs ∧ c ≠ ']' := by
  cases h with
  | last hw hv | cons hw hv =>
    obtain ⟨c, cs, rfl, hc, hne⟩ := treeText_head hv
    exact ⟨c, _, skipSpace_gap_cons hw hc _ _ _, hne⟩

lemma memberTreeText_head {m : List Piece × Written} (h : MemberTreeText m t) :
    ∃ cs, skipSpace (t ++ rest) = '"' :: cs := by
  cases h with
  | mk hw => exact ⟨_, skipSpace_gap_cons hw (by decide) _ _ _⟩

lemma memberTreesText_head {ms : List (List Piece × Written)} (h : MemberTreesText ms t) :
    ∃ cs, skipSpace (t ++ rest) = '"' :: cs := by
  cases h with
  | last hm | cons hm => rw [List.append_assoc]; exact memberTreeText_head hm

lemma readValue_skipSpace (bound : Nat) (s : List Char) : readValue bound (skipSpace s) = readValue bound s := by
  cases bound with
  | zero => rfl
  | succ bound => rw [readValue, readValue, skipSpace_skipSpace]

lemma readItems_skipSpace (bound : Nat) (s : List Char) : readItems bound (skipSpace s) = readItems bound s := by
  cases bound with
  | zero => rfl
  | succ bound => rw [readItems, readItems, readValue_skipSpace]

lemma readMembers_skipSpace (bound : Nat) (s : List Char) :
    readMembers bound (skipSpace s) = readMembers bound s := by
  cases bound with
  | zero => rfl
  | succ bound => rw [readMembers, readMembers, skipSpace_skipSpace]

lemma readValue_gap (hw : IsGap w) (bound : Nat) (s : List Char) : readValue bound (w ++ s) = readValue bound s := by
  rw [← readValue_skipSpace, skipSpace_append hw, readValue_skipSpace]

/-- A numeral is read where none of the other values starts. -/
lemma readValue_number {n : Numeral} (hn : NumeralText n t) (hrest : EndsNumeral rest) (bound : Nat) :
    readValue (bound + 1) (t ++ rest) = some (.number n, rest) := by
  have hread := readNumeral?_complete hn hrest
  obtain ⟨c, cs, rfl, hc⟩ := numeralText_head hn
  have hother (d : Char) (hd : ¬ (d.isDigit = true ∨ d = '-')) : c ≠ d := by
    rintro rfl
    exact hd hc
  have hspace : isSpace c = false := by
    simp [isSpace, hother ' ' (by decide), hother '\t' (by decide), hother '\n' (by decide),
      hother '\r' (by decide)]
  rw [List.cons_append] at hread ⊢
  rw [readValue, skipSpace_cons hspace]
  simp only [if_neg (hother 'n' (by decide)), if_neg (hother 't' (by decide)), if_neg (hother 'f' (by decide)),
    if_neg (hother '"' (by decide)), if_neg (hother '[' (by decide)), if_neg (hother '\x7b' (by decide)), hread,
    Option.map_some]

lemma readValue_items (bound : Nat) (hhead : ∃ c cs, skipSpace s = c :: cs ∧ c ≠ ']') :
    readValue (bound + 1) ('[' :: s) = (readItems bound s).map fun p => (.array p.1, p.2) := by
  obtain ⟨c, cs, hs, hc⟩ := hhead
  rw [← readItems_skipSpace, readValue, skipSpace_cons (by decide)]
  simp [hs, hc]

lemma readValue_members (bound : Nat) (hhead : ∃ cs, skipSpace s = '"' :: cs) :
    readValue (bound + 1) ('\x7b' :: s) = (readMembers bound s).map fun p => (.object p.1, p.2) := by
  obtain ⟨cs, hs⟩ := hhead
  rw [← readMembers_skipSpace, readValue, skipSpace_cons (by decide)]
  simp [hs]

/-- Texts up to a length are read as their trees, with any rest behind them. -/
structure ReadsWithin (bound : Nat) : Prop where
  value : ∀ {v t rest}, TreeText v t → t.length ≤ bound → EndsNumeral rest →
    readValue bound (t ++ rest) = some (v, rest)
  items : ∀ {vs t} (rest), ItemTreesText vs t → t.length < bound →
    readItems bound (t ++ ']' :: rest) = some (vs, rest)
  members : ∀ {ms t} (rest), MemberTreesText ms t → t.length < bound →
    readMembers bound (t ++ '\x7d' :: rest) = some (ms, rest)

lemma length_pos_of_treeText {v : Written} (h : TreeText v t) : 0 < t.length := by
  obtain ⟨c, cs, rfl, -⟩ := treeText_head h
  exact Nat.succ_pos _

lemma readsWithin_zero : ReadsWithin 0 where
  value h hle := absurd (length_pos_of_treeText h) (Nat.not_lt.2 hle)
  items _ _ hlt := absurd hlt (Nat.not_lt_zero _)
  members _ _ hlt := absurd hlt (Nat.not_lt_zero _)

lemma readValue_step (ih : ReadsWithin bound) {v : Written} (h : TreeText v t) (hle : t.length ≤ bound + 1)
    (hrest : EndsNumeral rest) : readValue (bound + 1) (t ++ rest) = some (v, rest) := by
  cases h with
  | null => rfl
  | bool b => cases b <;> rfl
  | number hn => exact readValue_number hn hrest bound
  | @string ps t ht =>
    have hread := readPieces_complete ht rest
    rw [List.cons_append, List.append_assoc, readValue, skipSpace_cons (by decide)]
    simp only [List.cons_append, List.nil_append, hread]
    rfl
  | @noItems w hw =>
    have hskip : skipSpace (w ++ ']' :: rest) = ']' :: rest := by
      rw [skipSpace_append hw, skipSpace_cons (by decide)]
    rw [List.cons_append, List.append_assoc, readValue, skipSpace_cons (by decide)]
    simp [hskip]
  | @array items t ht =>
    have hlen : t.length < bound := by simp at hle; omega
    have hitems := ih.items rest ht hlen
    rw [List.cons_append, List.append_assoc, readValue_items bound (itemTreesText_head ht)]
    exact congrArg _ hitems
  | @noMembers w hw =>
    have hskip : skipSpace (w ++ '\x7d' :: rest) = '\x7d' :: rest := by
      rw [skipSpace_append hw, skipSpace_cons (by decide)]
    rw [List.cons_append, List.append_assoc, readValue, skipSpace_cons (by decide)]
    simp [hskip]
  | @object members t ht =>
    have hlen : t.length < bound := by simp at hle; omega
    have hmembers := ih.members rest ht hlen
    rw [List.cons_append, List.append_assoc, readValue_members bound (memberTreesText_head ht)]
    exact congrArg _ hmembers

lemma readItems_step (ih : ReadsWithin bound) {vs : List Written} (h : ItemTreesText vs t)
    (hlt : t.length < bound + 1) (rest : List Char) : readItems (bound + 1) (t ++ ']' :: rest) = some (vs, rest) := by
  cases h with
  | @last v w t w' hw hv hw' =>
    have hlen : t.length ≤ bound := by simp at hlt; omega
    have hvalue := ih.value hv hlen (endsNumeral_gap hw' (endsNumeral_cons (c := ']') (by decide) rest))
    have hskip : skipSpace (w' ++ ']' :: rest) = ']' :: rest := by
      rw [skipSpace_append hw', skipSpace_cons (by decide)]
    rw [List.append_assoc, List.append_assoc, readItems, readValue_gap hw, hvalue]
    simp [hskip]
  | @cons v vs w t w' us hw hv hw' hus =>
    have hpos := length_pos_of_treeText hv
    -- The value has at least one character, so the comma and the items behind it are short enough.
    have hlen : t.length ≤ bound ∧ us.length < bound := by simp at hlt; omega
    have hends : EndsNumeral (',' :: (us ++ ']' :: rest)) := endsNumeral_cons (by decide) _
    have hvalue := ih.value hv hlen.1 (endsNumeral_gap hw' hends)
    have hskip : skipSpace (w' ++ ',' :: (us ++ ']' :: rest)) = ',' :: (us ++ ']' :: rest) := by
      rw [skipSpace_append hw', skipSpace_cons (by decide)]
    have hitems := ih.items rest hus hlen.2
    rw [List.append_assoc, List.append_assoc, List.append_assoc, List.cons_append, readItems, readValue_gap hw, hvalue]
    simp [hskip, hitems]

/-- A member is read, and behind its comma the rest of the members. -/
lemma readMembers_member (ih : ReadsWithin bound) {m : List Piece × Written} (h : MemberTreeText m t)
    (hle : t.length ≤ bound) (hw : IsGap w) (hc : c ∈ [',', '\x7d']) (rest : List Char) :
    readMembers (bound + 1) (t ++ (w ++ c :: rest)) =
      if c = ',' then (readMembers bound rest).map fun p => (m :: p.1, p.2) else some ([m], rest) := by
  cases h with
  | @mk key v w₁ k w₂ w₃ t hw₁ hk hw₂ hw₃ hv =>
    have hlen : t.length ≤ bound := by simp at hle; omega
    obtain ⟨hspace, hmem⟩ : isSpace c = false ∧ c ∈ [',', ']', '\x7d'] := by
      rcases List.mem_pair.mp hc with rfl | rfl <;> decide
    have hvalue := ih.value hv hlen (endsNumeral_gap hw (endsNumeral_cons hmem rest))
    have hkey := readPieces_complete hk (w₂ ++ ':' :: (w₃ ++ (t ++ (w ++ c :: rest))))
    have hcolon : skipSpace (w₂ ++ ':' :: (w₃ ++ (t ++ (w ++ c :: rest)))) =
        ':' :: (w₃ ++ (t ++ (w ++ c :: rest))) := by
      rw [skipSpace_append hw₂, skipSpace_cons (by decide)]
    have hskip : skipSpace (w ++ c :: rest) = c :: rest := by
      rw [skipSpace_append hw, skipSpace_cons hspace]
    rw [readMembers]
    simp only [List.append_assoc, List.cons_append, skipSpace_append hw₁,
      skipSpace_cons (by decide : isSpace '"' = false), hkey, hcolon, readValue_gap hw₃, hvalue, hskip,
      Option.bind_eq_bind, Option.bind_some, Option.pure_def]
    simp only [List.mem_cons, List.not_mem_nil, or_false] at hc
    rcases hc with rfl | rfl
    · cases hread : readMembers bound rest <;> simp [hread]
    · rfl

lemma readMembers_step (ih : ReadsWithin bound) {ms : List (List Piece × Written)} (h : MemberTreesText ms t)
    (hlt : t.length < bound + 1) (rest : List Char) :
    readMembers (bound + 1) (t ++ '\x7d' :: rest) = some (ms, rest) := by
  cases h with
  | @last m t w hm hw =>
    have hlen : t.length ≤ bound := by simp at hlt; omega
    have hmember := readMembers_member ih hm hlen hw (c := '\x7d') (by decide) rest
    rw [List.append_assoc, hmember]
    rfl
  | @cons m ms t w us hm hw hus =>
    have hlen : t.length ≤ bound ∧ us.length < bound := by simp at hlt; omega
    have hmember := readMembers_member ih hm hlen.1 hw (c := ',') (by decide) (us ++ '\x7d' :: rest)
    have hmembers := ih.members rest hus hlen.2
    rw [List.append_assoc, List.append_assoc, List.cons_append, hmember, if_pos rfl, hmembers]
    rfl

lemma readsWithin (bound : Nat) : ReadsWithin bound := by
  -- The readers of values, items and members call each other with one less, so one induction serves all three.
  induction bound with
  | zero => exact readsWithin_zero
  | succ bound ih =>
    exact {
      value := fun h hle hrest => readValue_step ih h hle hrest
      items := fun rest h hlt => readItems_step ih h hlt rest
      members := fun rest h hlt => readMembers_step ih h hlt rest }

/-! ## What is read is in the grammar -/

lemma ItemTreesText.gap {vs : List Written} (hw : IsGap w) (h : ItemTreesText vs t) : ItemTreesText vs (w ++ t) := by
  cases h with
  | last hw₁ hv hw₂ =>
    rw [← List.append_assoc]
    exact .last (hw.append hw₁) hv hw₂
  | cons hw₁ hv hw₂ hvs =>
    rw [← List.append_assoc]
    exact .cons (hw.append hw₁) hv hw₂ hvs

lemma MemberTreeText.gap {m : List Piece × Written} (hw : IsGap w) (h : MemberTreeText m t) :
    MemberTreeText m (w ++ t) := by
  cases h with
  | mk hw₁ hk hw₂ hw₃ hv =>
    rw [← List.append_assoc]
    exact .mk (hw.append hw₁) hk hw₂ hw₃ hv

lemma MemberTreesText.gap {ms : List (List Piece × Written)} (hw : IsGap w) (h : MemberTreesText ms t) :
    MemberTreesText ms (w ++ t) := by
  cases h with
  | last hm hw₁ =>
    rw [← List.append_assoc]
    exact .last (hm.gap hw) hw₁
  | cons hm hw₁ hms =>
    rw [← List.append_assoc]
    exact .cons (hm.gap hw) hw₁ hms

/-- What is read up to a bound is the text of what it is read as. -/
structure ReadsSoundly (bound : Nat) : Prop where
  value : ∀ {s v rest}, readValue bound s = some (v, rest) →
    ∃ w t, s = w ++ (t ++ rest) ∧ IsGap w ∧ TreeText v t
  items : ∀ {s vs rest}, readItems bound s = some (vs, rest) → ∃ t, s = t ++ ']' :: rest ∧ ItemTreesText vs t
  members : ∀ {s ms rest}, readMembers bound s = some (ms, rest) →
    ∃ t, s = t ++ '\x7d' :: rest ∧ MemberTreesText ms t

lemma word?_sound {word : String} (h : word? word s = some rest) : s = word.toList ++ rest := by
  unfold word? at h
  split_ifs at h with hprefix
  obtain ⟨behind, rfl⟩ := List.isPrefixOf_iff_prefix.1 hprefix
  cases h
  rw [← String.length_toList, List.drop_left]

lemma readValue_sound (ih : ReadsSoundly bound) {v : Written} (h : readValue (bound + 1) s = some (v, rest)) :
    ∃ w t, s = w ++ (t ++ rest) ∧ IsGap w ∧ TreeText v t := by
  suffices htext : ∃ t, skipSpace s = t ++ rest ∧ TreeText v t by
    obtain ⟨t, hs, ht⟩ := htext
    obtain ⟨w, hw, hgap⟩ := exists_gap s
    exact ⟨w, t, hs ▸ hgap, hw, ht⟩
  rw [readValue] at h
  cases hskip : skipSpace s with
  | nil =>
    rw [hskip] at h
    cases h
  | cons c cs =>
    simp only [hskip] at h
    split_ifs at h with hnull htrue hfalse hquote hbracket hbrace
    · obtain ⟨behind, hword, heq⟩ := Option.map_eq_some_iff.1 h
      cases heq
      exact ⟨_, by rw [hnull, word?_sound hword]; rfl, .null⟩
    · obtain ⟨behind, hword, heq⟩ := Option.map_eq_some_iff.1 h
      cases heq
      exact ⟨_, by rw [htrue, word?_sound hword]; rfl, .bool true⟩
    · obtain ⟨behind, hword, heq⟩ := Option.map_eq_some_iff.1 h
      cases heq
      exact ⟨_, by rw [hfalse, word?_sound hword]; rfl, .bool false⟩
    · obtain ⟨⟨ps, behind⟩, hread, heq⟩ := Option.map_eq_some_iff.1 h
      cases heq
      obtain ⟨t, rfl, ht⟩ := readPieces_sound hread
      exact ⟨_, by simp [hquote], .string ht⟩
    · split at h
      · next hclose =>
        cases h
        obtain ⟨w, hw, rfl⟩ := exists_gap_of_skipSpace hclose
        exact ⟨_, by simp [hbracket], .noItems hw⟩
      · obtain ⟨⟨vs, behind⟩, hread, heq⟩ := Option.map_eq_some_iff.1 h
        cases heq
        obtain ⟨w, hw, hcs⟩ := exists_gap cs
        obtain ⟨t, ht, hvs⟩ := ih.items hread
        exact ⟨_, by rw [hbracket, hcs, ht]; simp, .array (hvs.gap hw)⟩
    · split at h
      · next hclose =>
        cases h
        obtain ⟨w, hw, rfl⟩ := exists_gap_of_skipSpace hclose
        exact ⟨_, by simp [hbrace], .noMembers hw⟩
      · obtain ⟨⟨ms, behind⟩, hread, heq⟩ := Option.map_eq_some_iff.1 h
        cases heq
        obtain ⟨w, hw, hcs⟩ := exists_gap cs
        obtain ⟨t, ht, hms⟩ := ih.members hread
        exact ⟨_, by rw [hbrace, hcs, ht]; simp, .object (hms.gap hw)⟩
    · obtain ⟨⟨n, behind⟩, hread, heq⟩ := Option.map_eq_some_iff.1 h
      cases heq
      obtain ⟨t, ht, hn⟩ := readNumeral?_sound hread
      exact ⟨t, ht, .number hn⟩

lemma readItems_sound (ih : ReadsSoundly bound) {vs : List Written} (h : readItems (bound + 1) s = some (vs, rest)) :
    ∃ t, s = t ++ ']' :: rest ∧ ItemTreesText vs t := by
  simp only [readItems, Option.bind_eq_bind, Option.bind_eq_some_iff] at h
  obtain ⟨⟨v, behind⟩, hread, h⟩ := h
  obtain ⟨w, t, rfl, hw, hv⟩ := ih.value hread
  split at h
  · next next hskip =>
    obtain ⟨w', hw', rfl⟩ := exists_gap_of_skipSpace hskip
    simp only [Option.bind_eq_some_iff, Option.pure_def, Option.some.injEq] at h
    obtain ⟨⟨vs', after⟩, hreads, heq⟩ := h
    cases heq
    obtain ⟨u, rfl, hvs⟩ := ih.items hreads
    exact ⟨_, by simp, .cons hw hv hw' hvs⟩
  · next next hskip =>
    obtain ⟨w', hw', rfl⟩ := exists_gap_of_skipSpace hskip
    cases h
    exact ⟨_, by simp, .last hw hv hw'⟩
  · cases h

lemma readMembers_sound (ih : ReadsSoundly bound) {ms : List (List Piece × Written)}
    (h : readMembers (bound + 1) s = some (ms, rest)) : ∃ t, s = t ++ '\x7d' :: rest ∧ MemberTreesText ms t := by
  rw [readMembers] at h
  split at h
  · next s₁ hskip =>
    obtain ⟨w, hw, rfl⟩ := exists_gap_of_skipSpace hskip
    simp only [Option.bind_eq_bind, Option.bind_eq_some_iff] at h
    obtain ⟨⟨key, behind⟩, hkey, h⟩ := h
    obtain ⟨k, rfl, hk⟩ := readPieces_sound hkey
    split at h
    · next s₂ hcolon =>
      obtain ⟨w', hw', rfl⟩ := exists_gap_of_skipSpace hcolon
      simp only [Option.bind_eq_some_iff] at h
      obtain ⟨⟨v, after⟩, hread, h⟩ := h
      obtain ⟨u, t, rfl, hu, hv⟩ := ih.value hread
      have hmember : MemberTreeText (key, v) _ := .mk hw hk hw' hu hv
      split at h
      · next next hcomma =>
        obtain ⟨w'', hw'', rfl⟩ := exists_gap_of_skipSpace hcomma
        simp only [Option.bind_eq_some_iff, Option.pure_def, Option.some.injEq] at h
        obtain ⟨⟨ms', after⟩, hreads, heq⟩ := h
        cases heq
        obtain ⟨r, rfl, hms⟩ := ih.members hreads
        exact ⟨_, by simp, .cons hmember hw'' hms⟩
      · next next hclose =>
        obtain ⟨w'', hw'', rfl⟩ := exists_gap_of_skipSpace hclose
        cases h
        exact ⟨_, by simp, .last hmember hw''⟩
      · cases h
    · cases h
  · cases h

lemma readsSoundly (bound : Nat) : ReadsSoundly bound := by
  induction bound with
  | zero => exact { value := by rintro _ _ _ ⟨⟩, items := by rintro _ _ _ ⟨⟩, members := by rintro _ _ _ ⟨⟩ }
  | succ bound ih =>
    exact {
      value := readValue_sound ih
      items := readItems_sound ih
      members := readMembers_sound ih }

/-- The reader takes just the texts of the grammar. -/
theorem ofText?_eq_some_iff {text : String} {v : Written} : Written.ofText? text = some v ↔ IsText text v := by
  constructor
  · intro h
    simp only [Written.ofText?] at h
    split at h
    · next v' rest hread =>
      split_ifs at h with hend
      cases h
      obtain ⟨w, t, htext, hw, ht⟩ := (readsSoundly _).value hread
      obtain ⟨w', hw', hrest⟩ := exists_gap rest
      rw [List.isEmpty_iff.1 hend, List.append_nil] at hrest
      exact ⟨w, t, rest, htext, hw, ht, hrest ▸ hw'⟩
    · cases h
  · rintro ⟨w, t, w', htext, hw, ht, hw'⟩
    have hends : EndsNumeral w' := by
      have hgap := endsNumeral_gap hw' endsNumeral_nil
      rwa [List.append_nil] at hgap
    have hread := (readsWithin ((w ++ (t ++ w')).length + 1)).value ht (by simp; omega) hends
    have hskip : skipSpace w' = [] := by rw [← List.append_nil w', skipSpace_append hw']; rfl
    simp only [Written.ofText?, htext, readValue_gap hw, hread, hskip, List.isEmpty_nil, if_true]

end UiCatalog.Json
