import UiCatalog.Proofs.Matching

/-!
# What is read of a part of a text

Two texts share a part when it stands in both, perhaps at another place and before another text. What is read within
the part is the same in both, but for the place (`agree_run`). So where no match goes over the end of the part, the
matches of the one text in it are those of the other (`exists_findAllFrom_append`).
-/
namespace UiCatalog.Pattern

/-! ## Matches at another place -/

/-- The same characters, `shift` places further. -/
structure Capture.Moves (shift : ℕ) (c c' : Capture) : Prop where
  start : c'.start = c.start + shift
  stop : c'.stop = c.stop + shift
  chars : c'.chars = c.chars

/-- The same groups, `shift` places further. -/
abbrev GroupsMove (shift : ℕ) : List (ℕ × Capture) → List (ℕ × Capture) → Prop :=
  List.Forall₂ fun g g' => g'.1 = g.1 ∧ g.2.Moves shift g'.2

/-- The same match, `shift` places further. -/
structure Match.Moves (shift : ℕ) (m m' : Match) : Prop where
  whole : m.whole.Moves shift m'.whole
  groups : GroupsMove shift m.groups m'.groups

lemma GroupsMove.lookup {shift : ℕ} {groups groups' : List (ℕ × Capture)} (h : GroupsMove shift groups groups')
    (index : ℕ) : (groups'.lookup index).map Capture.chars = (groups.lookup index).map Capture.chars := by
  induction h with
  | nil => rfl
  | @cons g g' _ _ hg _ ih =>
    obtain ⟨i, c⟩ := g
    obtain ⟨i', c'⟩ := g'
    obtain ⟨hi, hc⟩ := hg
    obtain rfl : i' = i := hi
    rw [List.lookup_cons, List.lookup_cons]
    cases index == i'
    · exact ih
    · exact congrArg some hc.chars

lemma Match.Moves.get? {shift : ℕ} {m m' : Match} (h : m.Moves shift m') (index : ℕ) : m'.get? index = m.get? index :=
  GroupsMove.lookup h.groups index

/-! ## Two texts with a part in common -/

/-- Two texts with a part in common: it ends at `stop` in the one, `shift` places further in the other, and they go on
with `tail` and `tail'`. -/
structure Common where
  shift : ℕ
  stop : ℕ
  tail : List Char
  tail' : List Char
  head : tail'.head? = tail.head?

@[simp] lemma Point.offset_after (p : Point) (c : Char) (rest : List Char) :
    (p.after c rest).offset = p.offset + 1 := rfl

namespace Common

/-- The two places are the same place of the part. -/
structure Same (w : Common) (p p' : Point) : Prop where
  before : p'.before = p.before
  offset : p'.offset = p.offset + w.shift
  rest : ∃ part, p.rest = part ++ w.tail ∧ p'.rest = part ++ w.tail' ∧ w.stop = p.offset + part.length
  groups : GroupsMove w.shift p.groups p'.groups

/-- A match, if there is one, goes over the place. -/
def Beyond (stop : ℕ) (o : Option Match) : Prop := ∀ m, o = some m → stop < m.stop

/-- If there is a match within the part in one of the texts, then there is one in the other text, and it is the same
unless it goes over the end of the part. -/
structure Agree (w : Common) (o o' : Option Match) : Prop where
  left : ∀ m, o = some m → m.stop ≤ w.stop → ∃ m', o' = some m' ∧ (m'.stop ≤ w.stop + w.shift → m.Moves w.shift m')
  right : ∀ m', o' = some m' → m'.stop ≤ w.stop + w.shift → ∃ m, o = some m ∧ (m.stop ≤ w.stop → m.Moves w.shift m')

/-- What follows agrees at places of the part, and goes over its end from places behind it. -/
structure Continues (w : Common) (next next' : Point → Option Match) : Prop where
  agree : ∀ p p', w.Same p p' → w.Agree (next p) (next' p')
  beyond : ∀ p, w.stop < p.offset → Beyond w.stop (next p)
  beyond' : ∀ p, w.stop + w.shift < p.offset → Beyond (w.stop + w.shift) (next' p)

variable {w : Common} {o o' u u' : Option Match} {p p' q : Point} {next next' : Point → Option Match} {stop : ℕ}
  {pattern : Pattern} {accepts : Char → Bool} {s part tail tail' : List Char} {before : Option Char} {offset : ℕ}

/-! ### Beyond the part -/

lemma agree_of_beyond (h : Beyond w.stop o) (h' : Beyond (w.stop + w.shift) o') : w.Agree o o' where
  left m hm hle := absurd hle (h m hm).not_ge
  right m' hm' hle := absurd hle (h' m' hm').not_ge

lemma beyond_none : Beyond stop none := by
  rintro _ ⟨⟩

lemma beyond_run (h : ∀ p, stop < p.offset → Beyond stop (next p)) (hp : stop < p.offset) :
    Beyond stop (run pattern p next) := by
  intro m hm
  obtain ⟨q, hq, hnext⟩ := exists_reaches_of_run hm
  obtain ⟨xs, -, -, hover⟩ := hq.over
  refine h q ?_ m hnext
  rw [hover, Point.offset_over]
  omega

lemma beyond_runMany (h : ∀ p, stop < p.offset → Beyond stop (next p)) (hp : stop < p.offset) :
    Beyond stop (runMany accepts next p p.rest) :=
  show Beyond stop (run (many accepts) p next) from beyond_run h hp

lemma beyond_runFew (h : ∀ p, stop < p.offset → Beyond stop (next p)) (hp : stop < p.offset) :
    Beyond stop (runFew accepts next p p.rest) :=
  show Beyond stop (run (few accepts) p next) from beyond_run h hp

lemma beyond_runRepeated (body : Pattern) (h : ∀ p, stop < p.offset → Beyond stop (next p)) (bound : List Char)
    (hp : stop < p.offset) : Beyond stop (runRepeated (fun q k => run body q k) next bound p) := by
  intro m hm
  have hstep (p : Point) (next : Point → Option Match) (m : Match) (hm : run body p next = some m) :
      ∃ q, Reaches body p q ∧ next q = some m := exists_reaches_of_run hm
  obtain ⟨q, hq, hnext⟩ := exists_run_of_runRepeated hstep bound hm
  exact h q (hp.trans_le (offset_le_of_steps hq)) m hnext

/-! ### One try after another -/

lemma Agree.or (h : w.Agree o o') (hu : w.Agree u u') : w.Agree (o.or u) (o'.or u') where
  left m hm hle := by
    cases o' with
    | some m' =>
      refine ⟨m', rfl, fun hle' => ?_⟩
      obtain ⟨m₀, rfl, hmoves⟩ := h.right m' rfl hle'
      obtain rfl : m₀ = m := Option.some.inj hm
      exact hmoves hle
    | none =>
      cases o with
      | some m₀ =>
        obtain rfl : m₀ = m := Option.some.inj hm
        obtain ⟨_, hnone, -⟩ := h.left m₀ rfl hle
        cases hnone
      | none => exact hu.left m hm hle
  right m' hm' hle' := by
    cases o with
    | some m =>
      refine ⟨m, rfl, fun hle => ?_⟩
      obtain ⟨m₀, rfl, hmoves⟩ := h.left m rfl hle
      obtain rfl : m₀ = m' := Option.some.inj hm'
      exact hmoves hle'
    | none =>
      cases o' with
      | some m₀ =>
        obtain rfl : m₀ = m' := Option.some.inj hm'
        obtain ⟨_, hnone, -⟩ := h.right m₀ rfl hle'
        cases hnone
      | none => exact hu.right m' hm' hle'

/-- Where no match goes over the end of the part, there is the same one in both texts, or none. -/
lemma Agree.rel (h : w.Agree o o') (ho : ∀ m, o = some m → m.stop ≤ w.stop)
    (ho' : ∀ m', o' = some m' → m'.stop ≤ w.stop + w.shift) : Option.Rel (Match.Moves w.shift) o o' := by
  cases o with
  | some m =>
    obtain ⟨m', rfl, hmoves⟩ := h.left m rfl (ho m rfl)
    exact .some (hmoves (ho' m' rfl))
  | none =>
    cases o' with
    | none => exact .none
    | some m' =>
      obtain ⟨_, hnone, -⟩ := h.right m' rfl (ho' m' rfl)
      cases hnone

lemma runMany_cons (c : Char) (cs : List Char) : runMany accepts next p (c :: cs) =
    if accepts c then (runMany accepts next (p.after c cs) cs).or (next { p with rest := c :: cs })
    else next { p with rest := c :: cs } := by
  rw [runMany]
  cases runMany accepts next (p.after c cs) cs <;> rfl

lemma runFew_cons (c : Char) (cs : List Char) : runFew accepts next p (c :: cs) =
    (next { p with rest := c :: cs }).or (if accepts c then runFew accepts next (p.after c cs) cs else none) := by
  rw [runFew]
  cases next { p with rest := c :: cs } <;> rfl

lemma runRepeated_cons (step : Point → (Point → Option Match) → Option Match) (c : Char) (bound : List Char) :
    runRepeated step next (c :: bound) p =
      (step p fun q => if p.offset < q.offset then runRepeated step next bound q else none).or (next p) := by
  rw [runRepeated]
  cases step p fun q => if p.offset < q.offset then runRepeated step next bound q else none <;> rfl

lemma run_either (first second : Pattern) : run (either first second) p next =
    (run first p next).or (run second p next) := by
  rw [run]
  cases run first p next <;> rfl

/-! ### Along the part -/

lemma Same.head (h : w.Same p p') : p'.rest.head? = p.rest.head? := by
  obtain ⟨part, hp, hp', -⟩ := h.rest
  rw [hp, hp']
  cases part with
  | nil => exact w.head
  | cons c cs => rfl

lemma Same.offset_le (h : w.Same p p') : p.offset ≤ w.stop := by
  obtain ⟨part, -, -, hstop⟩ := h.rest
  omega

lemma Same.after {c : Char} (h : w.Same p p') (hp : p.rest = c :: part ++ w.tail) :
    w.Same (p.after c (part ++ w.tail)) (p'.after c (part ++ w.tail')) where
  before := rfl
  offset := by
    have hoffset := h.offset
    rw [Point.offset_after, Point.offset_after]
    omega
  rest := by
    obtain ⟨part₀, hrest, -, hstop⟩ := h.rest
    obtain rfl : part₀ = c :: part := List.append_cancel_right (hrest.symm.trans hp)
    refine ⟨part, rfl, rfl, ?_⟩
    rw [hstop, List.length_cons, Point.offset_after]
    omega
  groups := h.groups

/-- What holds at the end of the part, and at a place of it when it holds behind the next character, holds at all its
places. -/
lemma Same.induction {motive : ∀ p p', w.Same p p' → Prop}
    (last : ∀ p p' (h : w.Same p p'), p.offset = w.stop → motive p p' h)
    (step : ∀ p p' c part (h : w.Same p p') (hp : p.rest = c :: (part ++ w.tail)),
      p'.rest = c :: (part ++ w.tail') → motive _ _ (h.after hp) → motive p p' h) (h : w.Same p p') :
    motive p p' h := by
  obtain ⟨part, hp, hp', hstop⟩ := h.rest
  induction part generalizing p p' with
  | nil => exact last p p' h hstop.symm
  | cons c part ih =>
    refine step p p' c part h hp hp' (ih (h.after hp) rfl rfl ?_)
    rw [hstop, List.length_cons, Point.offset_after]
    omega

/-- What is read from one place of the part up to another is the same in both texts. -/
lemma Same.take {q' : Point} (h : w.Same p p') (hq : w.Same q q') :
    p'.rest.take (q'.offset - p'.offset) = p.rest.take (q.offset - p.offset) := by
  obtain ⟨part, hp, hp', hstop⟩ := h.rest
  have hle := hq.offset_le
  have hoffset := h.offset
  have hoffset' := hq.offset
  rw [hp, hp', List.take_append_of_le_length (by omega), List.take_append_of_le_length (by omega)]
  congr 1
  omega

lemma agree_run_one (h : w.Continues next next') (hs : w.Same p p') :
    w.Agree (run (one accepts) p next) (run (one accepts) p' next') := by
  obtain ⟨part, hp, hp', hstop⟩ := hs.rest
  cases part with
  | nil =>
    have hbehind {p : Point} {next : Point → Option Match} {stop : ℕ} (hat : p.offset = stop)
        (hbeyond : ∀ p, stop < p.offset → Beyond stop (next p)) : Beyond stop (run (one accepts) p next) := by
      intro m hm
      obtain ⟨q, ⟨c, rest, -, -, rfl⟩, hnext⟩ := exists_reaches_of_run hm
      exact hbeyond _ (by rw [Point.offset_over, List.length_singleton]; omega) m hnext
    have hoffset := hs.offset
    rw [List.length_nil] at hstop
    exact agree_of_beyond (hbehind (by omega) h.beyond) (hbehind (by omega) h.beyond')
  | cons c part =>
    rw [run, run, hp, hp']
    change w.Agree (if accepts c then next (p.after c (part ++ w.tail)) else none)
      (if accepts c then next' (p'.after c (part ++ w.tail')) else none)
    split_ifs
    · exact h.agree _ _ (hs.after hp)
    · exact agree_of_beyond beyond_none beyond_none

/-- At the end of the part a run is what follows, after tries that go beyond it. -/
lemma exists_runMany_eq (accepts : Char → Bool) (h : ∀ p, stop < p.offset → Beyond stop (next p))
    (hp : p.offset = stop) :
    ∃ o, Beyond stop o ∧ runMany accepts next p p.rest = o.or (next p) := by
  cases hrest : p.rest with
  | nil =>
    refine ⟨none, beyond_none, ?_⟩
    rw [runMany, ← hrest]
    rfl
  | cons c cs =>
    rw [runMany_cons, ← hrest]
    split_ifs
    · exact ⟨_, beyond_runMany (p := p.after c cs) h (by rw [Point.offset_after]; omega), rfl⟩
    · exact ⟨none, beyond_none, rfl⟩

lemma agree_runMany (h : w.Continues next next') (hs : w.Same p p') :
    w.Agree (runMany accepts next p p.rest) (runMany accepts next' p' p'.rest) := by
  induction hs using Same.induction with
  | last p p' hs hend =>
    have hoffset := hs.offset
    obtain ⟨o, ho, hrun⟩ := exists_runMany_eq accepts h.beyond (p := p) hend
    obtain ⟨o', ho', hrun'⟩ := exists_runMany_eq accepts h.beyond' (p := p') (by omega)
    rw [hrun, hrun']
    exact (agree_of_beyond ho ho').or (h.agree p p' hs)
  | step p p' c part hs hp hp' ih =>
    have hnext := h.agree p p' hs
    rw [hp, hp', runMany_cons, runMany_cons, ← hp, ← hp']
    split_ifs
    · exact ih.or hnext
    · exact hnext

lemma exists_runFew_eq (accepts : Char → Bool) (h : ∀ p, stop < p.offset → Beyond stop (next p))
    (hp : p.offset = stop) :
    ∃ o, Beyond stop o ∧ runFew accepts next p p.rest = (next p).or o := by
  cases hrest : p.rest with
  | nil =>
    refine ⟨none, beyond_none, ?_⟩
    rw [runFew, ← hrest, Option.or_none]
  | cons c cs =>
    rw [runFew_cons, ← hrest]
    refine ⟨_, ?_, rfl⟩
    split_ifs
    · exact beyond_runFew (p := p.after c cs) h (by rw [Point.offset_after]; omega)
    · exact beyond_none

lemma agree_runFew (h : w.Continues next next') (hs : w.Same p p') :
    w.Agree (runFew accepts next p p.rest) (runFew accepts next' p' p'.rest) := by
  induction hs using Same.induction with
  | last p p' hs hend =>
    have hoffset := hs.offset
    obtain ⟨o, ho, hrun⟩ := exists_runFew_eq accepts h.beyond (p := p) hend
    obtain ⟨o', ho', hrun'⟩ := exists_runFew_eq accepts h.beyond' (p := p') (by omega)
    rw [hrun, hrun']
    exact (h.agree p p' hs).or (agree_of_beyond ho ho')
  | step p p' c part hs hp hp' ih =>
    rw [hp, hp', runFew_cons, runFew_cons, ← hp, ← hp']
    refine (h.agree p p' hs).or ?_
    split_ifs
    · exact ih
    · exact agree_of_beyond beyond_none beyond_none

/-- Rounds that go over the end of the part are followed by what follows there. -/
lemma exists_runRepeated_eq (body : Pattern) (h : ∀ p, stop < p.offset → Beyond stop (next p)) (hp : p.offset = stop)
    (bound : List Char) :
    ∃ o, Beyond stop o ∧ runRepeated (fun q k => run body q k) next bound p = o.or (next p) := by
  cases bound with
  | nil => exact ⟨none, beyond_none, rfl⟩
  | cons c bound =>
    rw [runRepeated_cons]
    refine ⟨_, ?_, rfl⟩
    intro m hm
    obtain ⟨q, -, hq⟩ := exists_reaches_of_run hm
    split_ifs at hq with hlt
    exact beyond_runRepeated body h bound (hp ▸ hlt) m hq

lemma agree_runRepeated (body : Pattern)
    (hbody : ∀ {p p' next next'}, w.Continues next next' → w.Same p p' → w.Agree (run body p next) (run body p' next'))
    (h : w.Continues next next') (hs : w.Same p p') (bound bound' : List Char)
    (hbound : w.stop ≤ p.offset + bound.length) (hbound' : w.stop ≤ p.offset + bound'.length) :
    w.Agree (runRepeated (fun q k => run body q k) next bound p)
      (runRepeated (fun q k => run body q k) next' bound' p') := by
  have hnext := h.agree p p' hs
  have hoffset := hs.offset
  -- by induction on the bound, which is spent only where the part is
  induction bound generalizing p p' bound' with
  | nil =>
    have hend : p.offset = w.stop := le_antisymm hs.offset_le hbound
    obtain ⟨o', ho', hrun'⟩ := exists_runRepeated_eq body h.beyond' (p := p') (by omega) bound'
    rw [hrun']
    exact (agree_of_beyond beyond_none ho').or hnext
  | cons c bound ih =>
    cases bound' with
    | nil =>
      have hend : p.offset = w.stop := le_antisymm hs.offset_le hbound'
      obtain ⟨o, ho, hrun⟩ := exists_runRepeated_eq body h.beyond hend (c :: bound)
      rw [hrun]
      exact (agree_of_beyond ho beyond_none).or hnext
    | cons c' bound' =>
      rw [runRepeated_cons, runRepeated_cons]
      refine (hbody ⟨fun q q' hq => ?_, fun q hq => ?_, fun q hq => ?_⟩ hs).or hnext
      · have hoffset' := hq.offset
        rw [List.length_cons] at hbound hbound'
        by_cases hlt : p.offset < q.offset
        · rw [if_pos hlt, if_pos (by omega)]
          exact ih hq bound' (by omega) (by omega) (h.agree q q' hq) hoffset'
        · rw [if_neg hlt, if_neg (by omega)]
          exact agree_of_beyond beyond_none beyond_none
      · split_ifs
        · exact beyond_runRepeated body h.beyond bound hq
        · exact beyond_none
      · split_ifs
        · exact beyond_runRepeated body h.beyond' bound' hq
        · exact beyond_none

/-- A test that looks at both sides of a place, or behind the text, has the same result in both texts. -/
lemma agree_test (h : w.Continues next next') (hs : w.Same p p') (b : Bool) :
    w.Agree (if b then next p else none) (if b then next' p' else none) := by
  split_ifs
  · exact h.agree p p' hs
  · exact agree_of_beyond beyond_none beyond_none

lemma Continues.run (h : w.Continues next next')
    (hagree : ∀ p p', w.Same p p' → w.Agree (run pattern p next) (run pattern p' next')) :
    w.Continues (fun q => run pattern q next) fun q => run pattern q next' :=
  ⟨hagree, fun _ hp => beyond_run h.beyond hp, fun _ hp => beyond_run h.beyond' hp⟩

/-- Where the two texts have a part in common, the pattern reads the same. -/
theorem agree_run (h : w.Continues next next') (hs : w.Same p p') :
    w.Agree (Pattern.run pattern p next) (Pattern.run pattern p' next') := by
  induction pattern generalizing p p' next next' with
  | empty => exact h.agree p p' hs
  | one accepts => exact agree_run_one h hs
  | many accepts => exact agree_runMany h hs
  | few accepts => exact agree_runFew h hs
  | seq first second ih₁ ih₂ => exact ih₁ (h.run fun _ _ => ih₂ h) hs
  | either first second ih₁ ih₂ =>
    rw [run_either, run_either]
    exact (ih₁ h hs).or (ih₂ h hs)
  | repeated body ih =>
    obtain ⟨part, hp, hp', hstop⟩ := hs.rest
    refine agree_runRepeated body ih h hs p.rest p'.rest ?_ ?_
    · rw [hp, List.length_append]
      omega
    · rw [hp', List.length_append]
      omega
  | group index body ih =>
    refine ih ⟨fun q q' hq => ?_, fun q hq => h.beyond _ hq, fun q hq => h.beyond' _ hq⟩ hs
    have hcapture : Capture.Moves w.shift ⟨p.offset, q.offset, p.rest⟩ ⟨p'.offset, q'.offset, p'.rest⟩ :=
      ⟨hs.offset, hq.offset, hs.take hq⟩
    exact h.agree _ _ ⟨hq.before, hq.offset, hq.rest, .cons ⟨rfl, hcapture⟩ hq.groups⟩
  | wordEdge =>
    have hedge : p'.atWordEdge = p.atWordEdge := by rw [Point.atWordEdge, Point.atWordEdge, hs.before, hs.head]
    rw [Pattern.run, Pattern.run, hedge]
    exact agree_test h hs _
  | lineStart | textStart =>
    rw [Pattern.run, Pattern.run, hs.before]
    exact agree_test h hs _
  | textEnd =>
    have hend : p'.rest.isEmpty = p.rest.isEmpty := by
      rw [Bool.eq_iff_iff, List.isEmpty_iff, List.isEmpty_iff, ← List.head?_eq_none_iff, hs.head,
        List.head?_eq_none_iff]
    rw [Pattern.run, Pattern.run, hend]
    exact agree_test h hs _

/-! ### Matches -/

/-- A match within the part is the same in both texts. -/
theorem agree_matchAt? (pattern : Pattern) (w : Common) (before : Option Char) (offset : ℕ) (part : List Char)
    (hstop : w.stop = offset + part.length) : w.Agree (matchAt? pattern before offset (part ++ w.tail))
      (matchAt? pattern before (offset + w.shift) (part ++ w.tail')) := by
  have hstart : w.Same ⟨before, offset, part ++ w.tail, []⟩ ⟨before, offset + w.shift, part ++ w.tail', []⟩ :=
    ⟨rfl, rfl, ⟨part, rfl, rfl, hstop⟩, .nil⟩
  refine agree_run ⟨fun q q' hq => ?_, ?_, ?_⟩ hstart
  · have hmoves : Match.Moves w.shift ⟨⟨offset, q.offset, part ++ w.tail⟩, q.groups⟩
        ⟨⟨offset + w.shift, q'.offset, part ++ w.tail'⟩, q'.groups⟩ :=
      ⟨⟨rfl, hq.offset, hstart.take hq⟩, hq.groups⟩
    exact ⟨fun m hm _ => ⟨_, rfl, fun _ => Option.some.inj hm ▸ hmoves⟩,
      fun m hm _ => ⟨_, rfl, fun _ => Option.some.inj hm ▸ hmoves⟩⟩
  · rintro q hq _ ⟨⟩
    exact hq
  · rintro q hq _ ⟨⟩
    exact hq

end Common

/-! ## All matches -/

variable {pattern : Pattern}

/-- The matches that start before the place end there at the latest. -/
def Within (stop : ℕ) (found : List Match) : Prop := ∀ m ∈ found, m.start < stop → m.stop ≤ stop

/-- Where no match goes over the end of the part, the two texts have the same matches in it. -/
theorem exists_findAllFrom_append (w : Common) (skip : ℕ) (before : Option Char) (offset : ℕ) (part : List Char)
    (hskip : skip ≤ part.length) (hstop : w.stop = offset + part.length)
    (hin : Within w.stop (findAllFrom pattern skip before offset (part ++ w.tail)))
    (hin' : Within (w.stop + w.shift) (findAllFrom pattern skip before (offset + w.shift) (part ++ w.tail'))) :
    ∃ ms ms', findAllFrom pattern skip before offset (part ++ w.tail) =
        ms ++ findAllFrom pattern 0 (part.getLast?.or before) w.stop w.tail ∧
      findAllFrom pattern skip before (offset + w.shift) (part ++ w.tail') =
        ms' ++ findAllFrom pattern 0 (part.getLast?.or before) (w.stop + w.shift) w.tail' ∧
      List.Forall₂ (Match.Moves w.shift) ms ms' ∧ ∀ m ∈ ms, m.start < w.stop := by
  induction part generalizing skip before offset with
  | nil =>
    obtain rfl : skip = 0 := Nat.le_zero.1 hskip
    rw [List.length_nil, Nat.add_zero] at hstop
    rw [hstop]
    exact ⟨[], [], rfl, rfl, .nil, by simp⟩
  | cons c part ih =>
    have hnext : w.stop = offset + 1 + part.length := by
      rw [hstop, List.length_cons]
      omega
    have hshift : offset + 1 + w.shift = offset + w.shift + 1 := by omega
    rw [getLast?_or_cons]
    have ih := fun skip hskip => hshift ▸ ih skip (some c) (offset + 1) hskip hnext
    cases skip with
    | succ skip => exact ih skip (Nat.le_of_succ_le_succ hskip) hin hin'
    | zero =>
      rw [List.cons_append, List.cons_append] at *
      have hrel := (Common.agree_matchAt? pattern w before offset (c :: part) hstop).rel
        (fun m hm => hin m (findAllFrom_cons_some hm ▸ .head _) (by rw [start_of_matchAt? hm]; omega))
        fun m' hm' => hin' m' (findAllFrom_cons_some hm' ▸ .head _) (by rw [start_of_matchAt? hm']; omega)
      rw [List.cons_append, List.cons_append] at hrel
      cases hm : matchAt? pattern before offset (c :: (part ++ w.tail)) <;>
        cases hm' : matchAt? pattern before (offset + w.shift) (c :: (part ++ w.tail')) <;> rw [hm, hm'] at hrel
      case none.none =>
        rw [findAllFrom_cons_none hm] at hin ⊢
        rw [findAllFrom_cons_none hm'] at hin' ⊢
        exact ih 0 (Nat.zero_le _) hin hin'
      case some.some m m' =>
        obtain ⟨hmoves⟩ := hrel
        have hmoved : m'.stop = m.stop + w.shift := hmoves.whole.stop
        have hsame : m'.stop - (offset + w.shift) - 1 = m.stop - offset - 1 := by omega
        have hstart := start_of_matchAt? hm
        rw [findAllFrom_cons_some hm] at hin ⊢
        rw [findAllFrom_cons_some hm', hsame] at hin' ⊢
        have hle := hin m (.head _) (by omega)
        obtain ⟨ms, ms', hms, hms', hall, hbefore⟩ := ih (m.stop - offset - 1) (by omega)
          (fun m hm => hin m (.tail _ hm)) fun m hm => hin' m (.tail _ hm)
        rw [hms, hms']
        exact ⟨m :: ms, m' :: ms', rfl, rfl, .cons hmoves hall, List.forall_mem_cons.2 ⟨by omega, hbefore⟩⟩
      all_goals cases hrel

lemma forall₂_toList {α β : Type} {r : α → β → Prop} {o : Option α} {o' : Option β} (h : Option.Rel r o o') :
    List.Forall₂ r o.toList o'.toList := by
  cases h with
  | none => exact .nil
  | some h => exact .cons h .nil

/-- Further on in a text, the matches are the same. -/
theorem forall₂_findAllFrom_shift (pattern : Pattern) (shift : ℕ) (before : Option Char) (offset : ℕ) (s : List Char) :
    List.Forall₂ (Match.Moves shift) (findAllFrom pattern 0 before offset s)
      (findAllFrom pattern 0 before (offset + shift) s) := by
  let w : Common := ⟨shift, offset + s.length, [], [], rfl⟩
  have hwithin (offset : ℕ) : Within (offset + s.length) (findAllFrom pattern 0 before offset (s ++ [])) := by
    intro m hm _
    obtain ⟨u, v, hs, hmatch⟩ := exists_matchAt?_of_mem_findAllFrom hm
    obtain ⟨-, hfront, -, hstop⟩ := covers_of_matchAt? hmatch
    have hlength := congrArg List.length hs
    have hle := hfront.length_le
    rw [List.append_nil, List.length_append] at hlength
    omega
  have hmoved : offset + s.length + shift = offset + shift + s.length := by omega
  obtain ⟨ms, ms', hms, hms', hall, -⟩ := exists_findAllFrom_append w 0 before offset s (Nat.zero_le _) rfl
    (hwithin offset) (hmoved ▸ hwithin (offset + shift))
  rw [List.append_nil] at hms hms'
  rw [hms, hms']
  refine List.rel_append hall ?_
  have hstop {offset : ℕ} {m : Match} (hm : matchAt? pattern (s.getLast?.or before) offset [] = some m) :
      m.stop ≤ offset := by
    obtain ⟨-, hfront, -, hstop⟩ := covers_of_matchAt? hm
    rw [List.prefix_nil.1 hfront, List.length_nil] at hstop
    exact hstop.le
  have hrel := (Common.agree_matchAt? pattern w (s.getLast?.or before) (offset + s.length) [] rfl).rel
    (fun _ hm => hstop hm) fun _ hm' => hstop hm'
  exact forall₂_toList hrel

/-- Two texts that start alike have the same matches at the start, where none goes over the end of that. -/
theorem exists_findAll_append (pattern : Pattern) {lead tail tail' : List Char} (hhead : tail'.head? = tail.head?)
    (hin : Within lead.length (pattern.findAll (lead ++ tail)))
    (hin' : Within lead.length (pattern.findAll (lead ++ tail'))) :
    ∃ ms ms', pattern.findAll (lead ++ tail) = ms ++ findAllFrom pattern 0 lead.getLast? lead.length tail ∧
      pattern.findAll (lead ++ tail') = ms' ++ findAllFrom pattern 0 lead.getLast? lead.length tail' ∧
      List.Forall₂ (Match.Moves 0) ms ms' ∧ ∀ m ∈ ms, m.start < lead.length := by
  have happend := exists_findAllFrom_append ⟨0, lead.length, tail, tail', hhead⟩ 0 none 0 lead (Nat.zero_le _)
    (Nat.zero_add _).symm hin hin'
  rwa [Option.or_none] at happend

end UiCatalog.Pattern
