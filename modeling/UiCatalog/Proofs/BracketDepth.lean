import UiCatalog.Proofs.CodeText

/-!
# The depth of brackets

Only what the scanner takes for code counts towards the bracket depth. In any text, well-formed or not, a bracket is
closed where the depth that is counted from it comes back to zero for the first time. In well-formed code that is
where its group ends, and a list of such code is split at its own commas only.
-/
namespace UiCatalog.Code

open Text

/-- What a labelled character adds to the bracket depth. -/
def labelStep (m : Char × Bool) : Int := if m.2 then depthStep m.1 else 0

/-- The bracket depth behind labelled text. -/
def depthOf (marked : List (Char × Bool)) : Int := (marked.map labelStep).sum

/-- The bracket depth behind the character at index `i`, counted from index `start` on. -/
def depthAt (s : List Char) (start i : Nat) : Int := depthOf ((mark (s.drop start)).take (i + 1 - start))

/-- A bracket at index `stop` closes the one at index `start`: behind no character before it the depth is zero. -/
structure Closes (s : List Char) (start stop : Nat) : Prop where
  behind : start < stop
  bracket : ∃ c, s[stop]? = some c ∧ closesBracket c = true
  positive : ∀ i, start ≤ i → i < stop → 0 < depthAt s start i
  zero : depthAt s start stop = 0

variable {s body rest : List Char} {start stop depth n : Nat} {c o sep : Char} {m : Char × Bool}
  {marked ms : List (Char × Bool)}

/-! ## Depths -/

@[simp] lemma depthOf_nil : depthOf [] = 0 := rfl

lemma depthOf_cons (m : Char × Bool) (ms : List (Char × Bool)) : depthOf (m :: ms) = labelStep m + depthOf ms := by
  rw [depthOf, List.map_cons, List.sum_cons]
  rfl

lemma depthOf_append (marked ms : List (Char × Bool)) : depthOf (marked ++ ms) = depthOf marked + depthOf ms := by
  rw [depthOf, List.map_append, List.sum_append]
  rfl

lemma labelStep_ge (m : Char × Bool) : -1 ≤ labelStep m := by
  unfold labelStep depthStep
  split_ifs <;> decide

/-- Only a closing bracket that is code takes the depth down. -/
lemma closes_of_labelStep (h : labelStep m < 0) : closesBracket m.1 = true := by
  unfold labelStep depthStep at h
  split_ifs at h with _ _ hc
  · exact absurd h (by decide)
  · exact hc
  · exact absurd h (by decide)
  · exact absurd h (by decide)

/-- One step of the search: it ends where the depth is zero and goes on with the new depth otherwise. -/
lemma closingOffset?_cons (hd : 0 < depth) (m : Char × Bool) (ms : List (Char × Bool)) :
    closingOffset? depth (m :: ms) = if depth + labelStep m = 0 then some 0
      else (closingOffset? (depth + labelStep m).toNat ms).map (· + 1) := by
  obtain ⟨c, isCode⟩ := m
  have hne : depth ≠ 0 := by omega
  rw [closingOffset?, labelStep]
  cases isCode with
  | false => simp [hne]
  | true =>
    cases ho : opensBracket c with
    | true =>
      have hpositive : ¬ ((depth : Int) + 1 = 0) := by omega
      have hup : ((depth : Int) + 1).toNat = depth + 1 := by omega
      simp [depthStep_of_opens ho, hpositive, hup]
    | false =>
      cases hc : closesBracket c with
      | true =>
        by_cases hlast : depth ≤ 1
        · have hzero : (depth : Int) + -1 = 0 := by omega
          simp [depthStep_of_closes hc, hlast, hzero]
        · have hpositive : ¬ ((depth : Int) + -1 = 0) := by omega
          have hdown : ((depth : Int) + -1).toNat = depth - 1 := by omega
          simp [depthStep_of_closes hc, hlast, hpositive, hdown]
      | false => simp [depthStep, ho, hc, hne]

lemma colonOffset?_cons {depth : Int} (m : Char × Bool) (ms : List (Char × Bool)) : colonOffset? depth (m :: ms) =
    if depth + labelStep m = 0 ∧ m.2 = true ∧ (m.1 == ':') = true then some 0
    else (colonOffset? (depth + labelStep m) ms).map (· + 1) := by
  obtain ⟨c, _ | _⟩ := m <;> simp [colonOffset?, labelStep]

lemma getElem?_of_colonOffset? {depth : Int} (h : colonOffset? depth marked = some n) :
    (marked.map Prod.fst)[n]? = some ':' := by
  induction marked generalizing depth n with
  | nil => cases h
  | cons m ms ih =>
    rw [colonOffset?_cons] at h
    split_ifs at h with hcolon
    · obtain rfl := Option.some.inj h
      rw [List.map_cons, List.getElem?_cons_zero, beq_iff_eq.1 hcolon.2.2]
    · obtain ⟨k, hk, rfl⟩ := Option.map_eq_some_iff.1 h
      exact ih hk

lemma splitMarked_cons_labelStep {depth : Int} (m : Char × Bool) (ms : List (Char × Bool)) :
    splitMarked sep depth (m :: ms) =
      if depth + labelStep m = 0 ∧ m.2 = true ∧ m.1 = sep then [] :: splitMarked sep (depth + labelStep m) ms
      else prepend [m.1] (splitMarked sep (depth + labelStep m) ms) := by
  obtain ⟨c, _ | _⟩ := m <;> simp [splitMarked_cons, labelStep]

lemma positive_take_cons {depth : Int} (hd : 0 < depth) (m : Char × Bool) (ms : List (Char × Bool)) (n : Nat) :
    (∀ k ≤ n + 1, 0 < depth + depthOf ((m :: ms).take k)) ↔
      ∀ k ≤ n, 0 < depth + labelStep m + depthOf (ms.take k) := by
  constructor
  · intro h k hk
    have hbehind := h (k + 1) (by omega)
    rwa [List.take_succ_cons, depthOf_cons, ← add_assoc] at hbehind
  · intro h k hk
    cases k with
    | zero => simpa using hd
    | succ k =>
      rw [List.take_succ_cons, depthOf_cons, ← add_assoc]
      exact h k (by omega)

/-- The search ends at the first character behind which the depth is zero. -/
lemma closingOffset?_eq_some_iff (hd : 0 < depth) : closingOffset? depth marked = some n ↔
    (∀ k ≤ n, 0 < depth + depthOf (marked.take k)) ∧ depth + depthOf (marked.take (n + 1)) = 0 := by
  induction marked generalizing depth n with
  | nil =>
    have hne : depth ≠ 0 := by omega
    simp [closingOffset?, hne]
  | cons m ms ih =>
    rw [closingOffset?_cons hd]
    cases n with
    | zero =>
      split_ifs with hzero <;> simp [depthOf_cons, hzero, hd]
    | succ n =>
      rw [positive_take_cons (by omega), List.take_succ_cons, depthOf_cons, ← add_assoc]
      split_ifs with hzero
      · -- the depth is zero behind the first character, so that no later one can be the first
        refine iff_of_false (by simp) fun h => ?_
        have hfirst := h.1 0 (Nat.zero_le n)
        simp [hzero] at hfirst
      · have hnext : 0 < (depth + labelStep m).toNat := by
          have hstep := labelStep_ge m
          omega
        have hcast : ((depth + labelStep m).toNat : Int) = depth + labelStep m := by omega
        have hbehind := ih (n := n) hnext
        rw [hcast] at hbehind
        rw [← hbehind]
        simp

/-! ## Closing brackets -/

lemma closingIndex?_cons (hs : s.drop start = o :: rest) (ho : opensBracket o = true) :
    closingIndex? s start = (closingOffset? 1 (mark rest)).map (start + 1 + ·) := by
  rw [closingIndex?, hs]
  dsimp only
  rw [if_pos ho, mark_cons_of_bracket (.inl ho), closingOffset?, ho]
  simp only [Bool.and_self, if_true, Nat.zero_add, Option.map_map]
  congr 1
  funext n
  simp only [Function.comp_apply]
  omega

lemma depthAt_of_drop (hs : s.drop start = o :: rest) (ho : opensBracket o = true) (k : Nat) :
    depthAt s start (start + k) = 1 + depthOf ((mark rest).take k) := by
  have hlen : start + k + 1 - start = k + 1 := by omega
  rw [depthAt, hs, hlen, mark_cons_of_bracket (.inl ho), List.take_succ_cons, depthOf_cons, labelStep, if_pos rfl,
    depthStep_of_opens ho]

/-- Where the depth is positive, there is an opening bracket to count from. -/
lemma opens_of_depthAt (h : 0 < depthAt s start start) :
    ∃ o rest, s.drop start = o :: rest ∧ opensBracket o = true := by
  have hlen : start + 1 - start = 1 := by omega
  rw [depthAt, hlen] at h
  cases hs : s.drop start with
  | nil =>
    rw [hs] at h
    exact absurd h (by decide)
  | cons o rest =>
    refine ⟨o, rest, rfl, ?_⟩
    obtain ⟨isCode, ms, hmark⟩ : ∃ isCode ms, mark (o :: rest) = (o, isCode) :: ms := ⟨_, _, rfl⟩
    rw [hs, hmark] at h
    simp only [List.take_succ_cons, List.take_zero, depthOf_cons, depthOf_nil, labelStep, depthStep] at h
    split_ifs at h with _ ho
    · exact ho
    all_goals exact absurd h (by decide)

/-- Where the depth comes down, there is a closing bracket. -/
lemma closes_of_depthOf {k : Nat} (hdown : depthOf ((mark s).take (k + 1)) < depthOf ((mark s).take k)) :
    ∃ c, s[k]? = some c ∧ closesBracket c = true := by
  rw [List.take_add_one, depthOf_append] at hdown
  cases hm : (mark s)[k]? with
  | none =>
    rw [hm, Option.toList_none, depthOf_nil] at hdown
    omega
  | some m =>
    rw [hm, Option.toList_some, depthOf_cons, depthOf_nil] at hdown
    refine ⟨m.1, ?_, closes_of_labelStep (by omega)⟩
    rw [← map_fst_mark s, List.getElem?_map, hm]
    rfl

/-- In any text a closing bracket is found if and only if there is one. -/
lemma closingIndex?_eq_some_iff : closingIndex? s start = some stop ↔ Closes s start stop := by
  have hsearch {o : Char} {rest : List Char} {k : Nat} (hs : s.drop start = o :: rest) (ho : opensBracket o = true) :
      closingOffset? 1 (mark rest) = some k ↔
        (∀ i, start ≤ i → i < start + (k + 1) → 0 < depthAt s start i) ∧ depthAt s start (start + (k + 1)) = 0 := by
    rw [closingOffset?_eq_some_iff Nat.one_pos, depthAt_of_drop hs ho]
    refine and_congr_left fun _ => ⟨fun h i hi hlt => ?_, fun h j hj => ?_⟩
    · obtain ⟨j, rfl⟩ := Nat.exists_eq_add_of_le hi
      rw [depthAt_of_drop hs ho]
      exact h j (by omega)
    · rw [Nat.cast_one, ← depthAt_of_drop hs ho]
      exact h (start + j) (by omega) (by omega)
  constructor
  · intro h
    obtain ⟨o, rest, hs, ho⟩ : ∃ o rest, s.drop start = o :: rest ∧ opensBracket o = true := by
      unfold closingIndex? at h
      split at h
      · cases h
      · next o rest hs =>
        split_ifs at h with ho
        exact ⟨o, rest, hs, ho⟩
    rw [closingIndex?_cons hs ho] at h
    obtain ⟨k, hk, rfl⟩ := Option.map_eq_some_iff.1 h
    obtain ⟨hpositive, hzero⟩ := (hsearch hs ho).1 hk
    have hstop : start + 1 + k = start + (k + 1) := by omega
    rw [hstop]
    refine ⟨by omega, ?_, hpositive, hzero⟩
    have hbefore := hpositive (start + k) (by omega) (by omega)
    rw [depthAt_of_drop hs ho] at hbefore hzero
    obtain ⟨c, hc, hcloses⟩ := closes_of_depthOf (s := rest) (k := k) (by omega)
    refine ⟨c, ?_, hcloses⟩
    rw [← List.getElem?_drop, hs]
    exact hc
  · rintro ⟨hlt, -, hpositive, hzero⟩
    obtain ⟨o, rest, hs, ho⟩ := opens_of_depthAt (hpositive start (Nat.le_refl _) hlt)
    obtain ⟨k, rfl⟩ := Nat.exists_eq_add_of_lt hlt
    rw [closingIndex?_cons hs ho, (hsearch hs ho).2 ⟨hpositive, hzero⟩, Option.map_some]
    congr 1
    omega

/-- What follows a character decides on its label only where it may be part of a comment mark. -/
lemma step_of_not_commentMark (hc : c ≠ '/' ∧ c ≠ '*') (region : Region) (next next' : Option Char) :
    region.step c next = region.step c next' := by
  cases region <;> simp [Region.step, hc]

lemma closingOffset?_mark_append {region : Region} (h : closingOffset? depth (region.mark s) = some n)
    (rest : List Char) : closingOffset? depth (region.mark (s ++ rest)) = some n := by
  induction s generalizing region depth n with
  | nil => cases h
  | cons c s ih =>
    have hlater {depth : Nat} {region : Region} (h : (closingOffset? depth (region.mark s)).map (· + 1) = some n) :
        (closingOffset? depth (region.mark (s ++ rest))).map (· + 1) = some n := by
      obtain ⟨k, hk, rfl⟩ := Option.map_eq_some_iff.1 h
      rw [ih hk, Option.map_some]
    have hsame (hlabel : region.step c (s ++ rest).head? = region.step c s.head?) :
        closingOffset? depth (region.mark (c :: s ++ rest)) = some n := by
      rw [Region.mark, closingOffset?] at h
      rw [List.cons_append, Region.mark, hlabel, closingOffset?]
      split_ifs at h ⊢
      exacts [hlater h, h, hlater h, hlater h]
    cases s with
    | cons d s => exact hsame rfl
    | nil =>
      -- the last character is the closing bracket, so that its label does not depend on what follows
      have hcloses : closesBracket c = true := by
        by_contra hnot
        simp [Region.mark, closingOffset?, hnot] at h
      have hkeeps := keepsSlash_of_closes hcloses []
      exact hsame (step_of_not_commentMark (hkeeps c rfl) region _ _)

/-- A bracket that closes another one does so whatever follows it. -/
lemma closingIndex?_append (h : closingIndex? s start = some stop) (rest : List Char) :
    closingIndex? (s ++ rest) start = some stop := by
  unfold closingIndex? at h
  split at h
  · cases h
  · next o cs hs =>
    split_ifs at h with ho
    obtain ⟨n, hn, rfl⟩ := Option.map_eq_some_iff.1 h
    have hle : start ≤ s.length := by
      by_contra hgt
      rw [List.drop_eq_nil_of_le (by omega)] at hs
      cases hs
    have hfound := closingOffset?_mark_append hn rest
    rw [List.cons_append] at hfound
    rw [closingIndex?, List.drop_append_of_le_length hle, hs, List.cons_append]
    dsimp only
    rw [if_pos ho, mark, hfound, Option.map_some]

/-! ## Well-formed code -/

lemma splitTopLevel_wellFormed {pieces : List (List Char)} (h : ∀ t ∈ pieces, WellFormed (· ≠ ',') t) :
    splitTopLevel ',' (join [','] pieces) = pieces.filter fun piece => !isBlankText piece := by
  by_cases hnil : pieces = []
  · subst hnil
    rfl
  · exact splitTopLevel_segments (by decide) (by decide) hnil fun t ht => (h t ht).segment (by decide)

lemma wellFormed_append_of_plain {free : Char → Prop} {t : List Char} (ht : ∀ c ∈ t, isPlain c = true ∧ free c)
    (h : WellFormed free rest) : WellFormed free (t ++ rest) := by
  induction t with
  | nil => exact h
  | cons c t ih =>
    obtain ⟨hc, hfree⟩ := ht c (.head _)
    have hslash : c ≠ '/' := by
      rintro rfl
      exact absurd hc (by decide)
    have hquote : isQuote c = false := by
      simp only [isPlain, Bool.and_eq_true, Bool.not_eq_true'] at hc
      exact hc.1.1
    exact .plain hquote (depthStep_of_plain hc) hfree (fun heq => absurd heq hslash)
      (ih fun d hd => ht d (.tail _ hd))

/--
Brackets match and lists split as the grammar of well-formed code says, whatever the literals and comments in it hold
and whatever stands behind it. In any other text a bracket is found to be closed just where the depth is back at zero.
-/
theorem brackets_exact :
    (∀ o c body rest, opensBracket o = true → closesBracket c = true → WellFormed (fun _ => True) body →
      closingIndex? (o :: (body ++ c :: rest)) 0 = some (body.length + 1) ∧
      (o :: (body ++ c :: rest))[body.length + 1]? = some c ∧
      bracketBody? (o :: (body ++ c :: rest)) 0 = some body) ∧
    (∀ pieces : List (List Char), (∀ t ∈ pieces, WellFormed (· ≠ ',') t) →
      splitTopLevel ',' (join [','] pieces) = pieces.filter fun piece => !isBlankText piece) ∧
    ∀ s start stop, closingIndex? s start = some stop ↔ Closes s start stop := by
  refine ⟨fun o c body rest ho hc hbody => ?_, fun pieces => splitTopLevel_wellFormed, fun s start stop =>
    closingIndex?_eq_some_iff⟩
  have hsegment : Segment (fun _ => True) body := hbody.segment trivial
  have hdrop : (o :: (body ++ c :: rest)).drop 0 = o :: (body ++ c :: rest) := rfl
  refine ⟨?_, by simp, bracketBody?_segment ho hc hsegment hdrop⟩
  rw [closingIndex?_segment ho hc hsegment hdrop, Nat.zero_add]

/-- A call with a closing bracket in a comment, and a string with another one and a comma in it. -/
def callCode : List Char := "g(/* ) */x)'\x7d,'".toList

lemma wellFormed_callCode {free : Char → Prop} (hfree : free 'g') : WellFormed free callCode := by
  have hstring : IsLiteral "'\x7d,'".toList :=
    ⟨'\'', "\x7d,".toList, rfl, literalBody_of_plain (by decide) (by decide), rfl⟩
  have hcomment : IsComment "/* ) */".toList := @IsComment.block " ) ".toList (by decide)
  have hinside : WellFormed (fun _ => True) "/* ) */x".toList :=
    .comment hcomment (wellFormed_append_of_plain (t := ['x']) (by decide) .nil)
  have hname : ∀ c ∈ ['g'], isPlain c = true ∧ free c := List.forall_mem_singleton.2 ⟨by decide, hfree⟩
  exact wellFormed_append_of_plain hname (.group rfl rfl hinside (.literal hstring .nil))

theorem brackets_exact_of_call :
    WellFormed (fun _ => True) callCode ∧
    closingIndex? ('\x7b' :: (callCode ++ '\x7d' :: "')".toList)) 0 = some 16 ∧
    bracketBody? ('\x7b' :: (callCode ++ '\x7d' :: "')".toList)) 0 = some callCode ∧
    (∀ t ∈ [callCode, [' '], callCode], WellFormed (· ≠ ',') t) ∧
    splitTopLevel ',' "g(/* ) */x)'\x7d,', ,g(/* ) */x)'\x7d,'".toList = [callCode, callCode] ∧
    Closes "a(]\x7d".toList 1 2 := by
  have hbody : WellFormed (fun _ => True) callCode := wellFormed_callCode trivial
  have hpieces : ∀ t ∈ [callCode, [' '], callCode], WellFormed (· ≠ ',') t := by
    simp only [List.forall_mem_cons]
    exact ⟨wellFormed_callCode (by decide), wellFormed_append_of_plain (t := [' ']) (by decide) .nil,
      wellFormed_callCode (by decide), by simp⟩
  obtain ⟨hgroup, hlist, hany⟩ := brackets_exact
  obtain ⟨hindex, -, hinside⟩ := hgroup '\x7b' '\x7d' callCode "')".toList rfl rfl hbody
  exact ⟨hbody, hindex, hinside, hpieces, hlist _ hpieces, (hany _ 1 2).1 (by decide)⟩

end UiCatalog.Code
