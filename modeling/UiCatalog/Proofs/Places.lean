import Mathlib
import UiCatalog.Pattern

/-!
# Places that a pattern leads to

From a place in a text a pattern leads to other places, by one way or by several. The matcher only goes on at places
that its pattern leads to (`exists_reaches_of_run`), and where it can go on with success at one of them there is a
match (`isSome_run`). So whether there is a match does not depend on the order in which the ways are tried.
-/
namespace UiCatalog.Pattern

variable {β : Type} {pattern first second body : Pattern} {accepts : Char → Bool} {p q : Point}
  {next : Point → Option β} {r : β} {s xs ys rest : List Char} {before : Option Char} {offset : ℕ} {found : Match}

/-! ## What a pattern spells -/

/-- The texts that a pattern can cover, whatever stands around them. -/
def Spells : Pattern → List Char → Prop
  | empty, xs => xs = []
  | one accepts, xs => ∃ c, accepts c = true ∧ xs = [c]
  | many accepts, xs => ∀ c ∈ xs, accepts c = true
  | few accepts, xs => ∀ c ∈ xs, accepts c = true
  | seq first second, xs => ∃ ys zs, Spells first ys ∧ Spells second zs ∧ xs = ys ++ zs
  | either first second, xs => Spells first xs ∨ Spells second xs
  | repeated body, xs => ∃ parts : List (List Char), (∀ part ∈ parts, Spells body part) ∧ xs = parts.flatten
  | group _ body, xs => Spells body xs
  | wordEdge, xs => xs = []
  | lineStart, xs => xs = []
  | textStart, xs => xs = []
  | textEnd, xs => xs = []

@[simp] lemma spells_append :
    Spells (first ++ second) xs ↔ ∃ ys zs, Spells first ys ∧ Spells second zs ∧ xs = ys ++ zs := Iff.rfl

@[simp] lemma spells_orElse : Spells (first <|> second) xs ↔ Spells first xs ∨ Spells second xs := Iff.rfl

@[simp] lemma spells_group {index : Nat} : Spells (group index body) xs ↔ Spells body xs := Iff.rfl

@[simp] lemma spells_one : Spells (one accepts) xs ↔ ∃ c, accepts c = true ∧ xs = [c] := Iff.rfl

@[simp] lemma spells_char {c : Char} : Spells (char c) xs ↔ xs = [c] := by
  simp [char]

@[simp] lemma spells_chars {s : List Char} : Spells (chars s) xs ↔ xs = s := by
  induction s generalizing xs with
  | nil => exact Iff.rfl
  | cons c cs ih =>
    rw [chars, spells_append]
    simp [ih]

@[simp] lemma spells_text {s : String} : Spells (text s) xs ↔ xs = s.toList := spells_chars

lemma spells_many1 : Spells (many1 accepts) xs ↔ xs ≠ [] ∧ ∀ c ∈ xs, accepts c = true := by
  constructor
  · rintro ⟨_, cs, ⟨c, hc, rfl⟩, hcs, rfl⟩
    exact ⟨List.cons_ne_nil c cs, List.forall_mem_cons.2 ⟨hc, hcs⟩⟩
  · rintro ⟨hne, hxs⟩
    obtain ⟨c, cs, rfl⟩ := List.exists_cons_of_ne_nil hne
    obtain ⟨hc, hcs⟩ := List.forall_mem_cons.1 hxs
    exact ⟨[c], cs, ⟨c, hc, rfl⟩, hcs, rfl⟩

lemma noneOf_iff {s : String} {c : Char} : noneOf s c = true ↔ c ∉ s.toList := by
  simp [noneOf, String.contains_char_eq]

/-- A run of characters other than one. -/
lemma spells_many_noneOf {s : String} {c : Char} (hs : s.toList = [c]) : Spells (many (noneOf s)) xs ↔ c ∉ xs := by
  simp only [Spells, noneOf_iff, hs, List.mem_singleton]
  exact ⟨fun h hc => h c hc rfl, fun h d hd hdc => h (hdc ▸ hd)⟩

/-! ## Along a text -/

/-- The place behind the text `xs`, with `rest` following. -/
def Point.over (p : Point) (xs rest : List Char) : Point :=
  { p with before := xs.getLast?.or p.before, offset := p.offset + xs.length, rest }

@[simp] lemma Point.rest_over (p : Point) (xs rest : List Char) : (p.over xs rest).rest = rest := rfl

@[simp] lemma Point.offset_over (p : Point) (xs rest : List Char) : (p.over xs rest).offset = p.offset + xs.length :=
  rfl

@[simp] lemma Point.groups_over (p : Point) (xs rest : List Char) : (p.over xs rest).groups = p.groups := rfl

/-- What stands before a place only depends on the last character passed. -/
lemma getLast?_or_cons (c : Char) (cs : List Char) (before : Option Char) :
    (c :: cs).getLast?.or before = cs.getLast?.or (some c) := by
  rw [List.getLast?_cons]
  cases cs.getLast? <;> rfl

lemma Point.over_nil (p : Point) : p.over [] p.rest = p := rfl

lemma Point.over_after (p : Point) (c : Char) (xs cs rest : List Char) :
    (p.after c cs).over xs rest = p.over (c :: xs) rest := by
  simp only [Point.over, Point.after, Point.mk.injEq, List.length_cons, and_true, getLast?_or_cons]
  exact ⟨trivial, by omega⟩

/-- One text after another. -/
lemma Point.over_over (p : Point) (xs ys rest rest' : List Char) :
    (p.over xs rest).over ys rest' = p.over (xs ++ ys) rest' := by
  simp only [Point.over, Point.mk.injEq, List.getLast?_append, List.length_append, and_true, Option.or_assoc]
  exact ⟨trivial, by omega⟩

/-! ## Where a pattern leads -/

/-- The pattern leads from one place to the other, with what its groups remember on the way. -/
def Reaches : Pattern → Point → Point → Prop
  | empty, p, q => q = p
  | one accepts, p, q => ∃ c rest, p.rest = c :: rest ∧ accepts c = true ∧ q = p.over [c] rest
  | many accepts, p, q => ∃ xs rest, p.rest = xs ++ rest ∧ (∀ c ∈ xs, accepts c = true) ∧ q = p.over xs rest
  | few accepts, p, q => ∃ xs rest, p.rest = xs ++ rest ∧ (∀ c ∈ xs, accepts c = true) ∧ q = p.over xs rest
  | seq first second, p, q => ∃ m, Reaches first p m ∧ Reaches second m q
  | either first second, p, q => Reaches first p q ∨ Reaches second p q
  | repeated body, p, q => Relation.ReflTransGen (fun a b => Reaches body a b ∧ a.offset < b.offset) p q
  | group index body, p, q =>
    ∃ m, Reaches body p m ∧ q = { m with groups := (index, ⟨p.offset, m.offset, p.rest⟩) :: m.groups }
  | wordEdge, p, q => p.atWordEdge = true ∧ q = p
  | lineStart, p, q => p.before.all (· == '\n') = true ∧ q = p
  | textStart, p, q => p.before.isNone = true ∧ q = p
  | textEnd, p, q => p.rest.isEmpty = true ∧ q = p

/-! ## The matcher goes to places that are reached -/

lemma exists_run_of_runMany (hp : p.rest = s) (h : runMany accepts next p s = some r) :
    ∃ xs rest, s = xs ++ rest ∧ (∀ c ∈ xs, accepts c = true) ∧ next (p.over xs rest) = some r := by
  have stays (p : Point) (s : List Char) (h : next { p with rest := s } = some r) :
      ∃ xs rest, s = xs ++ rest ∧ (∀ c ∈ xs, accepts c = true) ∧ next (p.over xs rest) = some r :=
    ⟨[], s, rfl, by simp, h⟩
  induction s generalizing p with
  | nil => exact stays p [] h
  | cons c cs ih =>
    rw [runMany] at h
    split_ifs at h with hc
    · cases hrun : runMany accepts next (p.after c cs) cs with
      | some found =>
        rw [hrun] at h
        obtain ⟨xs, rest, rfl, hxs, hnext⟩ := ih rfl (hrun.trans h)
        rw [Point.over_after] at hnext
        exact ⟨c :: xs, rest, rfl, List.forall_mem_cons.2 ⟨hc, hxs⟩, hnext⟩
      | none => exact stays p _ (by simpa [hrun] using h)
    · exact stays p _ h

lemma exists_run_of_runFew (hp : p.rest = s) (h : runFew accepts next p s = some r) :
    ∃ xs rest, s = xs ++ rest ∧ (∀ c ∈ xs, accepts c = true) ∧ next (p.over xs rest) = some r := by
  induction s generalizing p with
  | nil => exact ⟨[], [], rfl, by simp, h⟩
  | cons c cs ih =>
    rw [runFew] at h
    cases hnext : next { p with rest := c :: cs } with
    | some found =>
      rw [hnext] at h
      exact ⟨[], c :: cs, rfl, by simp, hnext.trans h⟩
    | none =>
      simp only [hnext] at h
      split_ifs at h with hc
      obtain ⟨xs, rest, rfl, hxs, hnext⟩ := ih rfl h
      rw [Point.over_after] at hnext
      exact ⟨c :: xs, rest, rfl, List.forall_mem_cons.2 ⟨hc, hxs⟩, hnext⟩

lemma exists_run_of_runRepeated {step : Point → (Point → Option β) → Option β} {goes : Point → Point → Prop}
    (hstep : ∀ p next r, step p next = some r → ∃ q, goes p q ∧ next q = some r) (bound : List Char)
    (h : runRepeated step next bound p = some r) :
    ∃ q, Relation.ReflTransGen (fun a b => goes a b ∧ a.offset < b.offset) p q ∧ next q = some r := by
  induction bound generalizing p with
  | nil => exact ⟨p, .refl, h⟩
  | cons _ bound ih =>
    rw [runRepeated] at h
    split at h
    · next found hfound =>
      obtain ⟨m, hm, hnext⟩ := hstep _ _ _ (hfound.trans h)
      split_ifs at hnext with hlt
      obtain ⟨q, hq, hnext⟩ := ih hnext
      exact ⟨q, .head ⟨hm, hlt⟩ hq, hnext⟩
    · exact ⟨p, .refl, h⟩

theorem exists_reaches_of_run (h : run pattern p next = some r) : ∃ q, Reaches pattern p q ∧ next q = some r := by
  induction pattern generalizing p next r with
  | empty => exact ⟨p, rfl, h⟩
  | one accepts =>
    rw [run] at h
    split at h
    · next c cs hrest =>
      split_ifs at h with hc
      exact ⟨_, ⟨c, cs, hrest, hc, rfl⟩, h⟩
    · simp at h
  | many accepts =>
    obtain ⟨xs, rest, hp, hxs, hnext⟩ := exists_run_of_runMany rfl h
    exact ⟨_, ⟨xs, rest, hp, hxs, rfl⟩, hnext⟩
  | few accepts =>
    obtain ⟨xs, rest, hp, hxs, hnext⟩ := exists_run_of_runFew rfl h
    exact ⟨_, ⟨xs, rest, hp, hxs, rfl⟩, hnext⟩
  | seq first second ih₁ ih₂ =>
    obtain ⟨m, hm, h⟩ := ih₁ h
    obtain ⟨q, hq, hnext⟩ := ih₂ h
    exact ⟨q, ⟨m, hm, hq⟩, hnext⟩
  | either first second ih₁ ih₂ =>
    rw [run] at h
    split at h
    · next found hfound =>
      obtain ⟨q, hq, hnext⟩ := ih₁ (hfound.trans h)
      exact ⟨q, .inl hq, hnext⟩
    · obtain ⟨q, hq, hnext⟩ := ih₂ h
      exact ⟨q, .inr hq, hnext⟩
  | repeated body ih => exact exists_run_of_runRepeated (fun _ _ _ => ih) _ h
  | group index body ih =>
    obtain ⟨m, hm, hnext⟩ := ih h
    exact ⟨_, ⟨m, hm, rfl⟩, hnext⟩
  | wordEdge | lineStart | textStart | textEnd =>
    rw [run] at h
    split_ifs at h with hp
    exact ⟨p, ⟨hp, rfl⟩, h⟩

/-! ## What lies between the places -/

/-- Between the places stands a text that the pattern spells. -/
theorem Reaches.over (h : Reaches pattern p q) :
    ∃ xs, Spells pattern xs ∧ p.rest = xs ++ q.rest ∧ q = { p.over xs q.rest with groups := q.groups } := by
  induction pattern generalizing p q with
  | empty =>
    obtain rfl := h
    exact ⟨[], rfl, rfl, rfl⟩
  | one accepts =>
    obtain ⟨c, rest, hp, hc, rfl⟩ := h
    exact ⟨[c], ⟨c, hc, rfl⟩, hp, rfl⟩
  | many accepts | few accepts =>
    obtain ⟨xs, rest, hp, hxs, rfl⟩ := h
    exact ⟨xs, hxs, hp, rfl⟩
  | seq first second ih₁ ih₂ =>
    obtain ⟨m, hm, hq⟩ := h
    obtain ⟨ys, hys, hp, hm⟩ := ih₁ hm
    obtain ⟨zs, hzs, hrest, hq⟩ := ih₂ hq
    refine ⟨ys ++ zs, ⟨ys, zs, hys, hzs, rfl⟩, by rw [hp, hrest, List.append_assoc], ?_⟩
    rw [hq, hm, ← Point.over_over p ys zs m.rest]
    rfl
  | either first second ih₁ ih₂ =>
    obtain h | h := h
    · obtain ⟨xs, hxs, hpq⟩ := ih₁ h
      exact ⟨xs, .inl hxs, hpq⟩
    · obtain ⟨xs, hxs, hpq⟩ := ih₂ h
      exact ⟨xs, .inr hxs, hpq⟩
  | repeated body ih =>
    induction h with
    | refl => exact ⟨[], ⟨[], by simp, rfl⟩, rfl, rfl⟩
    | @tail m q _ hq ih' =>
      obtain ⟨_, ⟨parts, hparts, rfl⟩, hp, hm⟩ := ih'
      obtain ⟨zs, hzs, hrest, hq⟩ := ih hq.1
      refine ⟨parts.flatten ++ zs, ⟨parts ++ [zs], by simpa [or_imp, forall_and] using ⟨hparts, hzs⟩, by simp⟩,
        by rw [hp, hrest, List.append_assoc], ?_⟩
      rw [hq, hm, ← Point.over_over p parts.flatten zs m.rest]
      rfl
  | group index body ih =>
    obtain ⟨m, hm, rfl⟩ := h
    obtain ⟨xs, hxs, hp, hm⟩ := ih hm
    exact ⟨xs, hxs, hp, by rw [hm]; rfl⟩
  | wordEdge | lineStart | textStart | textEnd =>
    obtain ⟨-, rfl⟩ := h
    exact ⟨[], rfl, rfl, rfl⟩

/-! ## Where it can go on, the matcher finds a match -/

lemma isSome_runMany (hxs : ∀ c ∈ xs, accepts c = true) (hnext : (next (p.over xs rest)).isSome) :
    (runMany accepts next p (xs ++ rest)).isSome := by
  induction xs generalizing p with
  | nil =>
    cases rest with
    | nil => exact hnext
    | cons c cs =>
      rw [List.nil_append, runMany]
      split_ifs
      · split
        · rfl
        · exact hnext
      · exact hnext
  | cons c cs ih =>
    obtain ⟨hc, hcs⟩ := List.forall_mem_cons.1 hxs
    rw [← Point.over_after p c cs (cs ++ rest) rest] at hnext
    obtain ⟨found, hfound⟩ := Option.isSome_iff_exists.1 (ih hcs hnext)
    rw [List.cons_append, runMany, if_pos hc, hfound]
    rfl

lemma isSome_runFew (hxs : ∀ c ∈ xs, accepts c = true) (hnext : (next (p.over xs rest)).isSome) :
    (runFew accepts next p (xs ++ rest)).isSome := by
  induction xs generalizing p with
  | nil =>
    obtain ⟨found, hfound⟩ := Option.isSome_iff_exists.1 hnext
    cases rest with
    | nil => exact hnext
    | cons c cs => rw [List.nil_append, runFew, show next { p with rest := c :: cs } = some found from hfound]; rfl
  | cons c cs ih =>
    obtain ⟨hc, hcs⟩ := List.forall_mem_cons.1 hxs
    rw [← Point.over_after p c cs (cs ++ rest) rest] at hnext
    rw [List.cons_append, runFew]
    split
    · rfl
    · rw [if_pos hc]
      exact ih hcs hnext

lemma offset_le_of_steps {goes : Point → Point → Prop}
    (h : Relation.ReflTransGen (fun a b => goes a b ∧ a.offset < b.offset) p q) : p.offset ≤ q.offset := by
  induction h with
  | refl => exact Nat.le_refl _
  | tail _ hlast ih => exact ih.trans hlast.2.le

lemma isSome_runRepeated {step : Point → (Point → Option β) → Option β} {goes : Point → Point → Prop}
    (hstep : ∀ p q next, goes p q → (next q).isSome → (step p next).isSome)
    (h : Relation.ReflTransGen (fun a b => goes a b ∧ a.offset < b.offset) p q) (hnext : (next q).isSome)
    {bound : List Char} (hbound : q.offset ≤ p.offset + bound.length) : (runRepeated step next bound p).isSome := by
  induction h using Relation.ReflTransGen.head_induction_on generalizing bound with
  | refl =>
    cases bound with
    | nil => exact hnext
    | cons =>
      rw [runRepeated]
      split
      · rfl
      · exact hnext
  | @head p m hm hq ih =>
    have hle := offset_le_of_steps hq
    cases bound with
    | nil =>
      have hlt := hm.2
      simp only [List.length_nil] at hbound
      omega
    | cons c bound =>
      have hmore : q.offset ≤ m.offset + bound.length := by
        have hlt := hm.2
        rw [List.length_cons] at hbound
        omega
      have hfound := hstep p m (fun q => if p.offset < q.offset then runRepeated step next bound q else none) hm.1
        (by simpa [hm.2] using ih hmore)
      obtain ⟨found, hfound⟩ := Option.isSome_iff_exists.1 hfound
      rw [runRepeated, hfound]
      rfl

theorem isSome_run (h : Reaches pattern p q) (hnext : (next q).isSome) : (run pattern p next).isSome := by
  induction pattern generalizing p q next with
  | empty =>
    obtain rfl := h
    exact hnext
  | one accepts =>
    obtain ⟨c, rest, hp, hc, rfl⟩ := h
    rw [run, hp]
    simp only [hc, if_true]
    exact hnext
  | many accepts =>
    obtain ⟨xs, rest, hp, hxs, rfl⟩ := h
    rw [run, hp]
    exact isSome_runMany hxs hnext
  | few accepts =>
    obtain ⟨xs, rest, hp, hxs, rfl⟩ := h
    rw [run, hp]
    exact isSome_runFew hxs hnext
  | seq first second ih₁ ih₂ =>
    obtain ⟨m, hm, hq⟩ := h
    exact ih₁ hm (ih₂ hq hnext)
  | either first second ih₁ ih₂ =>
    rw [run]
    split
    · rfl
    · next hnone =>
      obtain h | h := h
      · simpa [hnone] using ih₁ h hnext
      · exact ih₂ h hnext
  | repeated body ih =>
    have hstep : ∀ p q (next : Point → Option β), Reaches body p q → (next q).isSome → (run body p next).isSome :=
      fun _ _ _ => ih
    obtain ⟨xs, -, hp, hq⟩ := h.over
    refine isSome_runRepeated hstep h hnext ?_
    rw [hq, hp, List.length_append, Point.offset_over]
    omega
  | group index body ih =>
    obtain ⟨m, hm, rfl⟩ := h
    exact ih hm hnext
  | wordEdge | lineStart | textStart | textEnd =>
    obtain ⟨hp, rfl⟩ := h
    rw [run, if_pos hp]
    exact hnext

/-! ## Matches -/

lemma exists_reaches_of_matchAt? (h : matchAt? pattern before offset s = some found) :
    ∃ q, Reaches pattern ⟨before, offset, s, []⟩ q ∧ found = ⟨⟨offset, q.offset, s⟩, q.groups⟩ := by
  obtain ⟨q, hq, hfound⟩ := exists_reaches_of_run h
  exact ⟨q, hq, (Option.some.inj hfound).symm⟩

lemma isSome_matchAt?_iff :
    (matchAt? pattern before offset s).isSome ↔ ∃ q, Reaches pattern ⟨before, offset, s, []⟩ q := by
  refine ⟨fun h => ?_, fun ⟨q, hq⟩ => isSome_run hq rfl⟩
  obtain ⟨found, hfound⟩ := Option.isSome_iff_exists.1 h
  obtain ⟨q, hq, -⟩ := exists_reaches_of_matchAt? hfound
  exact ⟨q, hq⟩

/-- The places behind a character are those of the rest, counted from there. -/
lemma matchAt?_cons_place (c : Char) (u v : List Char) :
    matchAt? pattern ((c :: u).getLast?.or before) (offset + (c :: u).length) v =
      matchAt? pattern (u.getLast?.or (some c)) (offset + 1 + u.length) v := by
  rw [getLast?_or_cons, List.length_cons, Nat.add_comm u.length 1, ← Nat.add_assoc]

lemma isSome_findFrom?_iff : (findFrom? pattern before offset s).isSome ↔
    ∃ u v, s = u ++ v ∧ (matchAt? pattern (u.getLast?.or before) (offset + u.length) v).isSome := by
  induction s generalizing before offset with
  | nil =>
    constructor
    · exact fun h => ⟨[], [], rfl, h⟩
    · rintro ⟨u, v, heq, h⟩
      obtain ⟨rfl, rfl⟩ := List.nil_eq_append_iff.1 heq
      exact h
  | cons c cs ih =>
    rw [findFrom?]
    split
    · next found hfound => exact iff_of_true rfl ⟨[], c :: cs, rfl, Option.isSome_of_eq_some hfound⟩
    · next hnone =>
      rw [ih]
      constructor
      · rintro ⟨u, v, rfl, h⟩
        exact ⟨c :: u, v, rfl, by rwa [matchAt?_cons_place]⟩
      · rintro ⟨u, v, heq, h⟩
        cases u with
        | nil =>
          rw [List.nil_append] at heq
          subst heq
          rw [show matchAt? pattern (([] : List Char).getLast?.or before) (offset + ([] : List Char).length) (c :: cs) =
            matchAt? pattern before offset (c :: cs) from rfl, hnone] at h
          cases h
        | cons c' u =>
          rw [List.cons_append, List.cons.injEq] at heq
          obtain ⟨rfl, rfl⟩ := heq
          rw [matchAt?_cons_place] at h
          exact ⟨u, v, rfl, h⟩

/-- A text has a match just when the pattern leads on from one of its places. -/
lemma isMatch_iff : isMatch pattern s = true ↔
    ∃ u v q, s = u ++ v ∧ Reaches pattern ⟨u.getLast?, u.length, v, []⟩ q := by
  rw [isMatch, find?, isSome_findFrom?_iff]
  simp only [isSome_matchAt?_iff, Option.or_none, Nat.zero_add, exists_and_left]

lemma exists_matchAt?_of_mem_findAllFrom {skip : ℕ} (h : found ∈ findAllFrom pattern skip before offset s) :
    ∃ u v, s = u ++ v ∧ matchAt? pattern (u.getLast?.or before) (offset + u.length) v = some found := by
  induction s generalizing skip before offset with
  | nil =>
    cases skip with
    | zero => exact ⟨[], [], rfl, Option.mem_toList.1 h⟩
    | succ skip => cases h
  | cons c cs ih =>
    have further {skip : ℕ} (h : found ∈ findAllFrom pattern skip (some c) (offset + 1) cs) :
        ∃ u v, c :: cs = u ++ v ∧ matchAt? pattern (u.getLast?.or before) (offset + u.length) v = some found := by
      obtain ⟨u, v, rfl, hfound⟩ := ih h
      exact ⟨c :: u, v, rfl, by rwa [matchAt?_cons_place]⟩
    cases skip with
    | zero =>
      rw [findAllFrom] at h
      split at h
      · next first hfirst =>
        rcases List.mem_cons.1 h with rfl | h
        · exact ⟨[], c :: cs, rfl, hfirst⟩
        · exact further h
      · exact further h
    | succ skip => exact further h

/-- Every match of a text starts at one of its places. -/
lemma exists_matchAt?_of_mem_findAll (h : found ∈ findAll pattern s) :
    ∃ u v, s = u ++ v ∧ matchAt? pattern u.getLast? u.length v = some found := by
  obtain ⟨u, v, rfl, hfound⟩ := exists_matchAt?_of_mem_findAllFrom h
  rw [Option.or_none, Nat.zero_add] at hfound
  exact ⟨u, v, rfl, hfound⟩

/-! ## Patterns without groups -/

/-- The pattern remembers nothing. -/
def GroupFree : Pattern → Prop
  | seq first second | either first second => GroupFree first ∧ GroupFree second
  | repeated body => GroupFree body
  | group _ _ => False
  | _ => True

/-- The pattern remembers nothing and does not look around. -/
def Plain : Pattern → Prop
  | seq first second | either first second => Plain first ∧ Plain second
  | repeated body => Plain body
  | empty | one _ | many _ | few _ => True
  | _ => False

@[simp] lemma plain_append : Plain (first ++ second) ↔ Plain first ∧ Plain second := Iff.rfl

@[simp] lemma plain_orElse : Plain (first <|> second) ↔ Plain first ∧ Plain second := Iff.rfl

@[simp] lemma plain_one : Plain (one accepts) := trivial

@[simp] lemma plain_many : Plain (many accepts) := trivial

@[simp] lemma plain_many1 : Plain (many1 accepts) := ⟨trivial, trivial⟩

@[simp] lemma plain_text (w : String) : Plain (text w) := by
  rw [text]
  induction w.toList with
  | nil => trivial
  | cons c cs ih => exact ⟨trivial, ih⟩

lemma groups_of_reaches (hfree : GroupFree pattern) (h : Reaches pattern p q) : q.groups = p.groups := by
  induction pattern generalizing p q with
  | empty =>
    obtain rfl := h
    rfl
  | one accepts =>
    obtain ⟨c, rest, -, -, rfl⟩ := h
    rfl
  | many accepts | few accepts =>
    obtain ⟨xs, rest, -, -, rfl⟩ := h
    rfl
  | seq first second ih₁ ih₂ =>
    obtain ⟨m, hm, hq⟩ := h
    exact (ih₂ hfree.2 hq).trans (ih₁ hfree.1 hm)
  | either first second ih₁ ih₂ => exact h.elim (ih₁ hfree.1) (ih₂ hfree.2)
  | repeated body ih =>
    induction h with
    | refl => rfl
    | tail _ hlast ih' => exact (ih hfree hlast.1).trans ih'
  | group index body ih => exact hfree.elim
  | wordEdge | lineStart | textStart | textEnd =>
    obtain ⟨-, rfl⟩ := h
    rfl

lemma reaches_seq_of_over (hy : Reaches first p (p.over xs (ys ++ rest)))
    (hz : Reaches second (p.over xs (ys ++ rest)) ((p.over xs (ys ++ rest)).over ys rest)) :
    Reaches (first ++ second) p (p.over (xs ++ ys) rest) := by
  rw [Point.over_over] at hz
  exact ⟨_, hy, hz⟩

/-- What a plain pattern spells leads it on, wherever it stands. -/
lemma reaches_of_spells (hplain : Plain pattern) (hxs : Spells pattern xs) (hp : p.rest = xs ++ rest) :
    Reaches pattern p (p.over xs rest) := by
  induction pattern generalizing p xs rest with
  | empty =>
    obtain rfl := hxs
    rw [show rest = p.rest from hp.symm]
    exact Point.over_nil p
  | one accepts =>
    obtain ⟨c, hc, rfl⟩ := hxs
    exact ⟨c, rest, hp, hc, rfl⟩
  | many accepts | few accepts => exact ⟨xs, rest, hp, hxs, rfl⟩
  | seq first second ih₁ ih₂ =>
    obtain ⟨ys, zs, hys, hzs, rfl⟩ := hxs
    rw [List.append_assoc] at hp
    exact reaches_seq_of_over (ih₁ hplain.1 hys hp) (ih₂ hplain.2 hzs rfl)
  | either first second ih₁ ih₂ =>
    obtain hxs | hxs := hxs
    · exact .inl (ih₁ hplain.1 hxs hp)
    · exact .inr (ih₂ hplain.2 hxs hp)
  | repeated body ih =>
    obtain ⟨parts, hparts, rfl⟩ := hxs
    induction parts generalizing p with
    | nil =>
      rw [show rest = p.rest from hp.symm]
      exact .refl
    | cons part parts ih' =>
      obtain ⟨hpart, hothers⟩ := List.forall_mem_cons.1 hparts
      rw [List.flatten_cons, List.append_assoc] at hp
      rw [List.flatten_cons]
      -- a part without characters is left out, as the matcher stops at one
      by_cases hne : part = []
      · subst hne
        exact ih' hothers hp
      · have hlater := ih' hothers (p := p.over part (parts.flatten ++ rest)) rfl
        rw [Point.over_over] at hlater
        have hpos : 0 < part.length := List.length_pos_iff.2 hne
        exact .head ⟨ih hplain hpart hp, by rw [Point.offset_over]; omega⟩ hlater
  | group | wordEdge | lineStart | textStart | textEnd => exact hplain.elim

/-- A pattern without groups leads on along the texts that it spells. -/
lemma exists_over_of_reaches (hfree : GroupFree pattern) (h : Reaches pattern p q) :
    ∃ xs, Spells pattern xs ∧ p.rest = xs ++ q.rest ∧ q = p.over xs q.rest := by
  obtain ⟨xs, hxs, hp, hq⟩ := h.over
  rw [groups_of_reaches hfree h] at hq
  exact ⟨xs, hxs, hp, hq⟩

lemma Plain.groupFree (h : Plain pattern) : GroupFree pattern := by
  induction pattern with
  | seq first second ih₁ ih₂ | either first second ih₁ ih₂ => exact ⟨ih₁ h.1, ih₂ h.2⟩
  | repeated body ih => exact ih h
  | group => exact h.elim
  | _ => trivial

/-- A plain pattern leads on exactly along what it spells. -/
lemma reaches_iff_of_plain (h : Plain pattern) :
    Reaches pattern p q ↔ ∃ xs rest, Spells pattern xs ∧ p.rest = xs ++ rest ∧ q = p.over xs rest := by
  constructor
  · intro hq
    obtain ⟨xs, hxs, hp, hover⟩ := exists_over_of_reaches h.groupFree hq
    exact ⟨xs, q.rest, hxs, hp, hover⟩
  · rintro ⟨xs, rest, hxs, hp, rfl⟩
    exact reaches_of_spells h hxs hp

lemma reaches_append : Reaches (first ++ second) p q ↔ ∃ m, Reaches first p m ∧ Reaches second m q := Iff.rfl

end UiCatalog.Pattern
