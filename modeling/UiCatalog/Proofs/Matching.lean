import UiCatalog.Proofs.Places

/-!
# What patterns match

A match covers a text that its pattern spells, so where no such text starts there is no match. Where one does,
the lemmas on `run` follow the pattern along it, and those on `findAllFrom` go from one match to the next.
-/
namespace UiCatalog.Pattern

variable {β : Type} {pattern first second body : Pattern} {accepts : Char → Bool} {p : Point}
  {next : Point → Option β} {r : β} {xs ys rest : List Char}

/-! ## What a match covers -/

/-- From `p` the matcher went on at some place with success, having covered a text of the given kind. -/
def Covers (kind : List Char → Prop) (text : List Char) (next : Point → Option β) (r : β) : Prop :=
  ∃ xs q, kind xs ∧ text = xs ++ q.rest ∧ next q = some r

/-- Where a pattern runs with success, it covers a text that it spells. -/
theorem covers_run (h : run pattern p next = some r) : Covers (Spells pattern) p.rest next r := by
  obtain ⟨q, hq, hnext⟩ := exists_reaches_of_run h
  obtain ⟨xs, hxs, hp, -⟩ := hq.over
  exact ⟨xs, q, hxs, hp, hnext⟩

/-- A match starts with a text that its pattern spells. -/
lemma exists_spells_of_matchAt? {before : Option Char} {offset : Nat} {s : List Char} {found : Match}
    (h : matchAt? pattern before offset s = some found) : ∃ xs rest, Spells pattern xs ∧ s = xs ++ rest := by
  obtain ⟨xs, q, hxs, hs, -⟩ := covers_run h
  exact ⟨xs, q.rest, hxs, hs⟩

/-! ## Running along a text -/

lemma run_append : run (first ++ second) p next = run first p fun q => run second q next := rfl

lemma run_group {index : Nat} : run (group index body) p next =
    run body p fun q => next { q with groups := (index, ⟨p.offset, q.offset, p.rest⟩) :: q.groups } := rfl

lemma run_one {c : Char} (hp : p.rest = c :: rest) (hc : accepts c = true) :
    run (one accepts) p next = next (p.over [c] rest) := by
  rw [run, hp]
  simp [hc, Point.over, Point.after]

lemma run_one_eq_none {c : Char} (hp : p.rest = c :: rest) (hc : accepts c = false) :
    run (one accepts) p next = none := by
  rw [run, hp]
  simp [hc]

lemma run_char {c : Char} (hp : p.rest = c :: rest) : run (char c) p next = next (p.over [c] rest) :=
  run_one hp (beq_self_eq_true c)

lemma run_chars (xs rest : List Char) (hp : p.rest = xs ++ rest) : run (chars xs) p next = next (p.over xs rest) := by
  induction xs generalizing p with
  | nil =>
    have hrest : rest = p.rest := hp.symm
    rw [hrest, Point.over_nil]
    rfl
  | cons c cs ih =>
    have hc : p.rest = c :: (cs ++ rest) := hp
    change run (char c) p (fun q => run (chars cs) q next) = _
    rw [run_char hc, ih (p := p.over [c] (cs ++ rest)) rfl]
    exact congrArg next (Point.over_after p c cs (cs ++ rest) rest)

lemma run_chars_eq_none (hp : ¬ xs <+: p.rest) : run (chars xs) p next = none := by
  cases h : run (chars xs) p next with
  | none => rfl
  | some r =>
    obtain ⟨ys, q, hys, hrest, -⟩ := covers_run h
    exact absurd ⟨q.rest, (spells_chars.mp hys ▸ hrest).symm⟩ hp

/-- A greedy run takes all that it can when the rest matches behind that. -/
lemma runMany_of_stop (xs rest : List Char) (hxs : ∀ c ∈ xs, accepts c = true)
    (hrest : ∀ c, rest.head? = some c → accepts c = false) (hnext : next (p.over xs rest) = some r) :
    runMany accepts next p (xs ++ rest) = some r := by
  induction xs generalizing p with
  | nil =>
    cases rest with
    | nil => exact hnext
    | cons c cs =>
      have hc : accepts c = false := hrest c rfl
      rw [List.nil_append, runMany, hc]
      exact hnext
  | cons c cs ih =>
    have hc : accepts c = true := hxs c (.head _)
    have hrun : runMany accepts next (p.after c (cs ++ rest)) (cs ++ rest) = some r := by
      refine ih (fun c hc => hxs c (.tail _ hc)) ?_
      rw [Point.over_after]
      exact hnext
    rw [List.cons_append, runMany, if_pos hc, hrun]

lemma run_many (xs rest : List Char) (hp : p.rest = xs ++ rest) (hxs : ∀ c ∈ xs, accepts c = true)
    (hrest : ∀ c, rest.head? = some c → accepts c = false) (hnext : next (p.over xs rest) = some r) :
    run (many accepts) p next = some r := by
  rw [run, hp]
  exact runMany_of_stop xs rest hxs hrest hnext

/-- A run that can always go on takes all that it can. -/
lemma run_many_of_total {goal : Point → β} : run (many accepts) p (fun q => some (goal q)) =
    some (goal (p.over (p.rest.takeWhile accepts) (p.rest.dropWhile accepts))) := by
  refine run_many _ _ List.takeWhile_append_dropWhile.symm (fun c hc => List.mem_takeWhile_imp hc) (fun c hc => ?_) rfl
  have hstop := List.head?_dropWhile_not accepts p.rest
  rwa [hc] at hstop

lemma run_many1 (xs rest : List Char) (hp : p.rest = xs ++ rest) (hne : xs ≠ [])
    (hxs : ∀ c ∈ xs, accepts c = true) (hrest : ∀ c, rest.head? = some c → accepts c = false)
    (hnext : next (p.over xs rest) = some r) : run (many1 accepts) p next = some r := by
  obtain ⟨c, cs, rfl⟩ := List.exists_cons_of_ne_nil hne
  change run (one accepts) p (fun q => run (many accepts) q next) = some r
  rw [run_one hp (hxs c (.head _))]
  refine run_many cs rest rfl (fun c hc => hxs c (.tail _ hc)) hrest ?_
  exact (congrArg next (Point.over_after p c cs (cs ++ rest) rest)).trans hnext

/-- A reluctant run ends at the first place where the rest matches. -/
lemma run_few_iff : run (few accepts) p next = some r ↔ ∃ xs rest, p.rest = xs ++ rest ∧ (∀ c ∈ xs, accepts c = true) ∧
    (∀ a b, xs = a ++ b → b ≠ [] → next (p.over a (b ++ rest)) = none) ∧ next (p.over xs rest) = some r := by
  rw [run]
  generalize hs : p.rest = s
  induction s generalizing p with
  | nil =>
    have hsame : ({ p with rest := [] } : Point) = p := by rw [← hs]
    have hnil : p.over [] [] = p := by
      have hover := Point.over_nil p
      rwa [hs] at hover
    rw [runFew, hsame]
    constructor
    · exact fun h => ⟨[], [], rfl, by simp, by simp, by rwa [hnil]⟩
    · rintro ⟨xs, rest, hsplit, -, -, h⟩
      obtain ⟨rfl, rfl⟩ := List.append_eq_nil_iff.1 hsplit.symm
      rwa [hnil] at h
  | cons c cs ih =>
    have hsame : ({ p with rest := c :: cs } : Point) = p := by rw [← hs]
    have hafter (xs rest : List Char) : (p.after c cs).over xs rest = p.over (c :: xs) rest :=
      Point.over_after p c xs cs rest
    rw [runFew, hsame]
    constructor
    · intro h
      split at h
      · next found hfound =>
        exact ⟨[], c :: cs, rfl, by simp, by simp, by rw [← hs]; exact hfound.trans h⟩
      · next hnone =>
        split_ifs at h with hc
        obtain ⟨xs, rest, hcs, hxs, hskip, hnext⟩ := (ih (p := p.after c cs) rfl).1 h
        refine ⟨c :: xs, rest, by rw [hcs]; rfl, List.forall_mem_cons.2 ⟨hc, hxs⟩, ?_, by rwa [← hafter]⟩
        intro a b hab hb
        rcases List.cons_eq_append_iff.1 hab with ⟨rfl, rfl⟩ | ⟨a, rfl, rfl⟩
        · rw [List.cons_append, ← hcs, ← hs]
          exact hnone
        · rw [← hafter]
          exact hskip a b rfl hb
    · rintro ⟨xs, rest, hsplit, hxs, hskip, hnext⟩
      rcases List.cons_eq_append_iff.1 hsplit with ⟨rfl, rfl⟩ | ⟨xs, rfl, rfl⟩
      · rw [← hs, Point.over_nil] at hnext
        rw [hnext]
      · obtain ⟨hc, hxs⟩ := List.forall_mem_cons.1 hxs
        have hnone := hskip [] (c :: xs) rfl (List.cons_ne_nil c xs)
        rw [List.cons_append, ← hs, Point.over_nil] at hnone
        rw [hnone, if_pos hc]
        refine (ih (p := p.after c (xs ++ rest)) rfl).2 ⟨xs, rest, rfl, hxs, ?_, by rwa [hafter]⟩
        intro a b hab hb
        rw [hafter]
        exact hskip (c :: a) b (by rw [hab]; rfl) hb

lemma run_orElse_left (h : run first p next = some r) : run (first <|> second) p next = some r := by
  change run (either first second) p next = some r
  rw [run, h]

lemma run_orElse_right (h : run first p next = none) : run (first <|> second) p next = run second p next := by
  change run (either first second) p next = _
  rw [run, h]

lemma run_optional_some (h : run body p next = some r) : run (Pattern.optional body) p next = some r :=
  run_orElse_left h

lemma run_optional_none (h : run body p next = none) : run (Pattern.optional body) p next = next p :=
  run_orElse_right h

lemma run_blanks {c : Char} (hxs : ∀ d ∈ xs, Text.isBlank d = true) (hp : p.rest = xs ++ c :: rest)
    (hc : Text.isBlank c = false) (hnext : next (p.over xs (c :: rest)) = some r) : run blanks p next = some r :=
  run_many xs _ hp hxs (fun _ hd => Option.some.inj hd ▸ hc) hnext

lemma chars_of_length {t : List Char} {start stop : Nat} (h : stop = start + t.length) (u : List Char) :
    (⟨start, stop, t ++ u⟩ : Capture).chars = t := by
  have hlen : stop - start = t.length := by omega
  rw [Capture.chars, hlen, List.take_left]

/-- A first group as long as the text it begins with holds that text. -/
lemma get_one_of_length {whole : Capture} {start stop : Nat} (h : stop = start + xs.length) (rest : List Char) :
    (⟨whole, [(1, ⟨start, stop, xs ++ rest⟩)]⟩ : Match).get 1 = xs := by
  simp only [Match.get, Match.get?, Match.group?, List.lookup_cons_self, Option.map_some, Option.getD_some,
    chars_of_length h]

/-! ## All matches of a text -/

/-- No match starts within `s`, when `rest` follows it. -/
def Quiet (pattern : Pattern) (s rest : List Char) : Prop :=
  ∀ a b before offset, s = a ++ b → b ≠ [] → matchAt? pattern before offset (b ++ rest) = none

/-- No match starts within `s`, when `before` stands before it and `rest` follows. -/
def QuietBehind (pattern : Pattern) (before : Option Char) (s rest : List Char) : Prop :=
  ∀ a b offset, s = a ++ b → b ≠ [] → matchAt? pattern (a.getLast?.or before) offset (b ++ rest) = none

lemma Quiet.behind (h : Quiet pattern xs rest) (before : Option Char) : QuietBehind pattern before xs rest :=
  fun a b => h a b _

/-- No match starts at the first character, and none behind it. -/
lemma QuietBehind.cons {c : Char} {before : Option Char} (h : QuietBehind pattern before (c :: xs) rest) :
    (∀ offset, matchAt? pattern before offset (c :: (xs ++ rest)) = none) ∧ QuietBehind pattern (some c) xs rest := by
  refine ⟨fun offset => h [] (c :: xs) offset rfl (List.cons_ne_nil c xs), ?_⟩
  rintro a b offset rfl hb
  have hquiet := h (c :: a) b offset rfl hb
  rwa [getLast?_or_cons] at hquiet

lemma offset_add_length_cons (offset : ℕ) (c : Char) (xs : List Char) :
    offset + (c :: xs).length = offset + 1 + xs.length := by
  rw [List.length_cons]
  omega

/-- What goes on behind a character that is to be skipped gets past all of them. -/
lemma eq_of_skip {search : ℕ → Option Char → ℕ → List Char → β}
    (hskip : ∀ n before offset c s, search (n + 1) before offset (c :: s) = search n (some c) (offset + 1) s)
    (xs rest : List Char) (before : Option Char) (offset : ℕ) :
    search xs.length before offset (xs ++ rest) = search 0 (xs.getLast?.or before) (offset + xs.length) rest := by
  induction xs generalizing before offset with
  | nil => rfl
  | cons c cs ih =>
    rw [offset_add_length_cons, List.length_cons, List.cons_append, hskip, ih, getLast?_or_cons]

/-- What goes on behind a character where no match starts, and does with the character as it does with all of them, gets
past a text where none starts. -/
lemma eq_of_quietBehind {search : Option Char → ℕ → List Char → β} {keep : Char → β → β}
    (hkeep : ∀ before offset c s, matchAt? pattern before offset (c :: s) = none →
      search before offset (c :: s) = keep c (search (some c) (offset + 1) s))
    {before : Option Char} (h : QuietBehind pattern before xs rest) (offset : ℕ) :
    search before offset (xs ++ rest) = xs.foldr keep (search (xs.getLast?.or before) (offset + xs.length) rest) := by
  induction xs generalizing before offset with
  | nil => rfl
  | cons c cs ih =>
    obtain ⟨hnone, hcs⟩ := h.cons
    rw [List.cons_append, hkeep _ _ _ _ (hnone offset), ih hcs, getLast?_or_cons, offset_add_length_cons,
      List.foldr_cons]

lemma findAllFrom_cons_some {before : Option Char} {offset : ℕ} {c : Char} {s : List Char} {m : Match}
    (h : matchAt? pattern before offset (c :: s) = some m) : findAllFrom pattern 0 before offset (c :: s) =
      m :: findAllFrom pattern (m.stop - offset - 1) (some c) (offset + 1) s := by
  rw [findAllFrom, h]

lemma findAllFrom_cons_none {before : Option Char} {offset : ℕ} {c : Char} {s : List Char}
    (h : matchAt? pattern before offset (c :: s) = none) :
    findAllFrom pattern 0 before offset (c :: s) = findAllFrom pattern 0 (some c) (offset + 1) s := by
  rw [findAllFrom, h]

lemma findAllFrom_of_quietBehind {before : Option Char} (h : QuietBehind pattern before xs rest) (offset : Nat) :
    findAllFrom pattern 0 before offset (xs ++ rest) =
      findAllFrom pattern 0 (xs.getLast?.or before) (offset + xs.length) rest :=
  (eq_of_quietBehind (fun _ _ _ _ hnone => findAllFrom_cons_none hnone) h offset).trans (List.foldr_fixed xs)

lemma findAllFrom_of_quiet (h : Quiet pattern xs rest) (before : Option Char) (offset : Nat) :
    findAllFrom pattern 0 before offset (xs ++ rest) =
      findAllFrom pattern 0 (xs.getLast?.or before) (offset + xs.length) rest :=
  findAllFrom_of_quietBehind (h.behind before) offset

/-- Behind a match the search goes on. -/
lemma findAllFrom_of_match {before : Option Char} {offset : Nat} {found : Match} (hne : xs ≠ [])
    (h : matchAt? pattern before offset (xs ++ rest) = some found) (hstop : found.stop = offset + xs.length) :
    findAllFrom pattern 0 before offset (xs ++ rest) =
      found :: findAllFrom pattern 0 (xs.getLast?.or before) (offset + xs.length) rest := by
  obtain ⟨c, cs, rfl⟩ := List.exists_cons_of_ne_nil hne
  have hskip : found.stop - offset - 1 = cs.length := by rw [hstop, List.length_cons]; omega
  rw [List.cons_append] at h ⊢
  rw [findAllFrom_cons_some h, getLast?_or_cons, offset_add_length_cons, hskip]
  exact congrArg (found :: ·) (eq_of_skip (fun _ _ _ _ _ => rfl) cs rest (some c) (offset + 1))

/-! ## Replacing all matches -/

section Replacing

variable {image : Match → List Char}

lemma replaceAllFrom_of_quiet (h : Quiet pattern xs rest) (before : Option Char) (offset : ℕ) :
    replaceAllFrom pattern image 0 before offset (xs ++ rest) =
      xs ++ replaceAllFrom pattern image 0 (xs.getLast?.or before) (offset + xs.length) rest := by
  refine (eq_of_quietBehind (fun _ _ _ _ hnone => ?_) (h.behind before) offset).trans List.foldr_cons_eq_append'
  rw [replaceAllFrom, hnone]

/-- Behind a match the replacing goes on. -/
lemma replaceAllFrom_of_match {before : Option Char} {offset : ℕ} {found : Match} (hne : xs ≠ [])
    (h : matchAt? pattern before offset (xs ++ rest) = some found) (hstop : found.stop = offset + xs.length) :
    replaceAllFrom pattern image 0 before offset (xs ++ rest) =
      image found ++ replaceAllFrom pattern image 0 (xs.getLast?.or before) (offset + xs.length) rest := by
  obtain ⟨c, cs, rfl⟩ := List.exists_cons_of_ne_nil hne
  have hskip : found.stop - offset - 1 = cs.length := by rw [hstop, List.length_cons]; omega
  rw [List.cons_append] at h ⊢
  rw [replaceAllFrom, h, getLast?_or_cons, offset_add_length_cons]
  change image found ++ replaceAllFrom pattern image (found.stop - offset - 1) (some c) (offset + 1) (cs ++ rest) = _
  rw [hskip]
  exact congrArg (image found ++ ·) (eq_of_skip (fun _ _ _ _ _ => rfl) cs rest (some c) (offset + 1))

lemma replaceAllFrom_nil (before : Option Char) (offset : ℕ) :
    replaceAllFrom pattern image 0 before offset [] = [] := by
  rw [replaceAllFrom]

lemma replaceAllFrom_eq_self (h : Quiet pattern xs []) (before : Option Char) (offset : ℕ) :
    replaceAllFrom pattern image 0 before offset xs = xs := by
  have hquiet : replaceAllFrom pattern image 0 before offset (xs ++ []) = _ := replaceAllFrom_of_quiet h before offset
  rwa [List.append_nil, replaceAllFrom_nil, List.append_nil] at hquiet

end Replacing

/-! ## The first match of a text -/

lemma start_of_matchAt? {before : Option Char} {offset : Nat} {s : List Char} {found : Match}
    (h : matchAt? pattern before offset s = some found) : found.start = offset := by
  obtain ⟨_, q, -, -, hq⟩ := covers_run h
  rw [← Option.some.inj hq]
  rfl

/-- A match covers a text that its pattern spells. -/
lemma covers_of_matchAt? {before : Option Char} {offset : Nat} {s : List Char} {found : Match}
    (h : matchAt? pattern before offset s = some found) : Spells pattern found.chars ∧ found.chars <+: s ∧
      found.start = offset ∧ found.stop = offset + found.chars.length := by
  obtain ⟨q, hq, rfl⟩ := exists_reaches_of_matchAt? h
  obtain ⟨xs, hxs, hs, hover⟩ := hq.over
  have hs : s = xs ++ q.rest := hs
  have hstop : q.offset = offset + xs.length := by
    rw [hover]
    rfl
  have hchars : (⟨⟨offset, q.offset, s⟩, q.groups⟩ : Match).chars = xs := by
    rw [hs]
    exact chars_of_length hstop q.rest
  rw [hchars]
  exact ⟨hxs, ⟨q.rest, hs.symm⟩, rfl, hstop⟩

/-- Every match of a text stands in it where it starts. -/
lemma covers_of_mem_findAll {s : List Char} {found : Match} (h : found ∈ findAll pattern s) :
    Spells pattern found.chars ∧ found.chars <+: s.drop found.start ∧
      found.stop = found.start + found.chars.length := by
  obtain ⟨u, v, rfl, hfound⟩ := exists_matchAt?_of_mem_findAll h
  obtain ⟨hspells, hfront, hstart, hstop⟩ := covers_of_matchAt? hfound
  rw [hstart, List.drop_left]
  exact ⟨hspells, hfront, hstop⟩

lemma start_of_mem_findAllFrom {skip : ℕ} {before : Option Char} {offset : ℕ} {s : List Char} {found : Match}
    (h : found ∈ findAllFrom pattern skip before offset s) : offset + skip ≤ found.start := by
  induction s generalizing skip before offset with
  | nil =>
    cases skip with
    | zero => exact (start_of_matchAt? (Option.mem_toList.1 h)).ge
    | succ skip => cases h
  | cons c cs ih =>
    cases skip with
    | zero =>
      rw [findAllFrom] at h
      split at h
      · next first hfirst =>
        rcases List.mem_cons.1 h with rfl | h
        · exact (start_of_matchAt? hfirst).ge
        · have hlater := ih h
          omega
      · have hlater := ih h
        omega
    | succ skip =>
      have hlater := ih h
      omega

/-- Each match starts behind the one before it. -/
lemma pairwise_findAll (pattern : Pattern) (s : List Char) :
    (findAll pattern s).Pairwise fun m m' => m.stop ≤ m'.start := by
  have hfrom (skip : ℕ) (before : Option Char) (offset : ℕ) :
      (findAllFrom pattern skip before offset s).Pairwise fun m m' => m.stop ≤ m'.start := by
    induction s generalizing skip before offset with
    | nil =>
      cases skip with
      | zero =>
        rw [findAllFrom]
        cases matchAt? pattern before offset [] <;> simp
      | succ skip => exact .nil
    | cons c cs ih =>
      cases skip with
      | zero =>
        rw [findAllFrom]
        split
        · refine List.pairwise_cons.2 ⟨fun m' hm' => ?_, ih _ _ _⟩
          have hstart := start_of_mem_findAllFrom hm'
          omega
        · exact ih _ _ _
      | succ skip => exact ih _ _ _
  exact hfrom 0 none 0

/-- Where the pattern matches the search finds that match, unless an earlier match goes over the place. -/
lemma mem_findAllFrom_or_covered (skip : ℕ) {before : Option Char} {offset : ℕ} {u v : List Char} {found : Match}
    (h : matchAt? pattern (u.getLast?.or before) (offset + u.length) v = some found) :
    u.length < skip ∨ found ∈ findAllFrom pattern skip before offset (u ++ v) ∨
      ∃ m ∈ findAllFrom pattern skip before offset (u ++ v), m.start < found.start ∧ found.start < m.stop := by
  have hstart := start_of_matchAt? h
  induction u generalizing skip before offset with
  | nil =>
    cases skip with
    | succ skip => exact .inl (Nat.succ_pos skip)
    | zero =>
      refine .inr (.inl ?_)
      cases v with
      | nil => exact Option.mem_toList.2 h
      | cons c cs =>
        have hfound : matchAt? pattern before offset (c :: cs) = some found := h
        rw [List.nil_append, findAllFrom_cons_some hfound]
        exact .head _
  | cons c u ih =>
    rw [matchAt?_cons_place] at h
    rw [offset_add_length_cons] at hstart
    cases skip with
    | succ skip =>
      rcases ih skip h hstart with hskip | hfound
      · exact .inl (by rw [List.length_cons]; omega)
      · exact .inr hfound
    | zero =>
      rw [List.cons_append, findAllFrom]
      split
      · next first hfirst =>
        have hbefore := start_of_matchAt? hfirst
        rcases ih (first.stop - offset - 1) h hstart with hskip | hfound | ⟨m, hm, hcovers⟩
        · exact .inr (.inr ⟨first, .head _, by omega, by omega⟩)
        · exact .inr (.inl (.tail _ hfound))
        · exact .inr (.inr ⟨m, .tail _ hm, hcovers⟩)
      · rcases ih 0 h hstart with hskip | hfound
        · exact absurd hskip (Nat.not_lt_zero _)
        · exact .inr hfound

/-- Matches that are not empty start one after the other. -/
lemma pairwise_start_findAll {s : List Char} (h : ∀ m ∈ findAll pattern s, m.start < m.stop) :
    (findAll pattern s).Pairwise fun m m' => m.start < m'.start :=
  (pairwise_findAll pattern s).imp_of_mem fun hm _ hle => (h _ hm).trans_le hle

lemma mem_findAll_or_covered {u v : List Char} {found : Match}
    (h : matchAt? pattern u.getLast? u.length v = some found) : found ∈ findAll pattern (u ++ v) ∨
      ∃ m ∈ findAll pattern (u ++ v), m.start < found.start ∧ found.start < m.stop := by
  rw [← Option.or_none (o := u.getLast?), ← Nat.zero_add u.length] at h
  exact (mem_findAllFrom_or_covered 0 h).resolve_left (Nat.not_lt_zero _)

/-- A match at the start of a text is one of its matches. -/
lemma mem_findAll_of_matchAt? {s : List Char} {found : Match} (h : matchAt? pattern none 0 s = some found) :
    found ∈ findAll pattern s := by
  refine (mem_findAll_or_covered (u := []) h).resolve_right ?_
  rintro ⟨m, -, hlt, -⟩
  rw [start_of_matchAt? h] at hlt
  exact absurd hlt (Nat.not_lt_zero _)

lemma findFrom?_of_match {before : Option Char} {offset : Nat} {found : Match}
    (h : matchAt? pattern before offset rest = some found) : findFrom? pattern before offset rest = some found := by
  cases rest with
  | nil => exact h
  | cons c cs => rw [findFrom?, h]

lemma findFrom?_of_quiet (h : Quiet pattern xs rest) (before : Option Char) (offset : Nat) :
    findFrom? pattern before offset (xs ++ rest) =
      findFrom? pattern (xs.getLast?.or before) (offset + xs.length) rest := by
  refine (eq_of_quietBehind (fun _ _ _ _ hnone => ?_) (h.behind before) offset).trans (List.foldr_fixed xs)
  rw [findFrom?, hnone]

/-- A search that gets as far as a match finds it. -/
lemma findFrom?_of_matchAt? (before : Option Char) {offset : Nat} {found : Match} (xs : List Char)
    (h : ∀ before, matchAt? pattern before (offset + xs.length) rest = some found) :
    ∃ first, findFrom? pattern before offset (xs ++ rest) = some first ∧
      (first.start < offset + xs.length ∨ first = found) := by
  induction xs generalizing before offset with
  | nil => exact ⟨found, findFrom?_of_match (h before), .inr rfl⟩
  | cons c cs ih =>
    rw [List.cons_append, findFrom?]
    cases hc : matchAt? pattern before offset (c :: (cs ++ rest)) with
    | some first => exact ⟨first, rfl, .inl (by rw [start_of_matchAt? hc, List.length_cons]; omega)⟩
    | none =>
      rw [offset_add_length_cons] at h ⊢
      exact ih (some c) h

end UiCatalog.Pattern
