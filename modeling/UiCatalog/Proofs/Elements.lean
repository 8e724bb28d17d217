import UiCatalog.Proofs.Declarations
import UiCatalog.Proofs.Matching

/-!
# Elements and their attributes

An element is looked for by its opening, the attributes before the one that is looked for, and that attribute. Opening
and attribute lead on in one way only, so of an element the first such attribute is read, and whatever order the
matcher tries things in, `matchAt?_elementWith_iff` says what it reads.
-/
namespace UiCatalog.Pattern

open Text Code

variable {β : Type} {pattern first second body opening sought : Pattern} {accepts : Char → Bool} {p q q' m : Point}
  {next : Point → Option β} {r : β} {xs lead rest s : List Char} {before : Option Char} {offset : ℕ} {found : Match}

/-! ## Patterns that lead on in one way -/

/-- From every place the pattern leads on to at most one other. -/
def OneWay (pattern : Pattern) : Prop := ∀ p q q', Reaches pattern p q → Reaches pattern p q' → q' = q

/-- The place stands before a character of the class. -/
def StandsBefore (accepts : Char → Bool) (p : Point) : Prop := ∃ c rest, p.rest = c :: rest ∧ accepts c = true

/-- The pattern only leads on from places before a character of the class. -/
def StartsIn (accepts : Char → Bool) (pattern : Pattern) : Prop := ∀ p q, Reaches pattern p q → StandsBefore accepts p

/-- Of the places that the pattern leads to, at most one stands before a character of the class. -/
def EndsBefore (accepts : Char → Bool) (pattern : Pattern) : Prop := ∀ p q q', Reaches pattern p q →
  Reaches pattern p q' → StandsBefore accepts q → StandsBefore accepts q' → q' = q

/-- The matcher goes where the pattern leads. -/
lemma run_of_oneWay (h : OneWay pattern) (hq : Reaches pattern p q) : run pattern p next = next q := by
  cases hnext : next q with
  | some r =>
    obtain ⟨r', hr'⟩ := Option.isSome_iff_exists.1 (isSome_run hq (Option.isSome_of_eq_some hnext))
    obtain ⟨q', hq', hnext'⟩ := exists_reaches_of_run hr'
    rw [hr', ← hnext', h p q q' hq hq', hnext]
  | none =>
    by_contra hsome
    obtain ⟨r, hr⟩ := Option.ne_none_iff_exists'.1 hsome
    obtain ⟨q', hq', hnext'⟩ := exists_reaches_of_run hr
    rw [h p q q' hq hq', hnext] at hnext'
    exact absurd hnext' (by simp)

lemma run_of_not_reaches (h : ∀ q, ¬ Reaches pattern p q) : run pattern p next = none := by
  by_contra hsome
  obtain ⟨r, hr⟩ := Option.ne_none_iff_exists'.1 hsome
  obtain ⟨q, hq, -⟩ := exists_reaches_of_run hr
  exact h q hq

lemma matchAt?_of_oneWay (h : OneWay pattern) (hq : Reaches pattern ⟨before, offset, s, []⟩ q) :
    matchAt? pattern before offset s = some ⟨⟨offset, q.offset, s⟩, q.groups⟩ :=
  run_of_oneWay h hq

lemma oneWay_one : OneWay (one accepts) := by
  rintro p _ _ ⟨c, rest, hp, -, rfl⟩ ⟨c', rest', hp', -, rfl⟩
  rw [hp, List.cons.injEq] at hp'
  rw [hp'.1, hp'.2]

lemma OneWay.append (hf : OneWay first) (hs : OneWay second) : OneWay (first ++ second) := by
  rintro p q q' ⟨m, hm, hq⟩ ⟨m', hm', hq'⟩
  rw [hf p m m' hm hm'] at hq'
  exact hs m q q' hq hq'

lemma oneWay_chars (s : List Char) : OneWay (chars s) := by
  induction s with
  | nil => rintro p _ _ rfl rfl; rfl
  | cons c cs ih => exact oneWay_one.append ih

lemma oneWay_text (s : String) : OneWay (text s) := oneWay_chars s.toList

lemma oneWay_wordEdge : OneWay wordEdge := by
  rintro p _ _ ⟨-, rfl⟩ ⟨-, rfl⟩
  rfl

lemma startsIn_one : StartsIn accepts (one accepts) := by
  rintro p _ ⟨c, rest, hp, hc, -⟩
  exact ⟨c, rest, hp, hc⟩

lemma StartsIn.append (h : StartsIn accepts first) (second : Pattern) : StartsIn accepts (first ++ second) := by
  rintro p _ ⟨m, hm, -⟩
  exact h p m hm

/-- Alternatives that start in different ways lead on in one way, if each of them does. -/
lemma OneWay.orElse {accepts' : Char → Bool} (hf : OneWay first) (hs : OneWay second) (hfirst : StartsIn accepts first)
    (hsecond : StartsIn accepts' second) (hne : ∀ c, accepts c = true → accepts' c = false) :
    OneWay (first <|> second) := by
  have hdisjoint {p q q' : Point} (hq : Reaches first p q) (hq' : Reaches second p q') : False := by
    obtain ⟨c, rest, hp, hc⟩ := hfirst p q hq
    obtain ⟨c', rest', hp', hc'⟩ := hsecond p q' hq'
    rw [hp, List.cons.injEq] at hp'
    rw [← hp'.1, hne c hc] at hc'
    exact absurd hc' (by simp)
  rintro p q q' (hq | hq) (hq' | hq')
  · exact hf p q q' hq hq'
  · exact (hdisjoint hq hq').elim
  · exact (hdisjoint hq' hq).elim
  · exact hs p q q' hq hq'

lemma StartsIn.mono {accepts' : Char → Bool} (h : StartsIn accepts pattern)
    (himp : ∀ c, accepts c = true → accepts' c = true) : StartsIn accepts' pattern := by
  intro p q hq
  obtain ⟨c, rest, hp, hc⟩ := h p q hq
  exact ⟨c, rest, hp, himp c hc⟩

lemma StartsIn.orElse (hf : StartsIn accepts first) (hs : StartsIn accepts second) :
    StartsIn accepts (first <|> second) := by
  rintro p q (hq | hq)
  · exact hf p q hq
  · exact hs p q hq

/-- Where only other characters stand, nothing matches. -/
lemma quiet_of_startsIn (hp : StartsIn accepts pattern) (h : ∀ c ∈ xs, accepts c = false) (rest : List Char) :
    Quiet pattern xs rest := by
  rintro a b before offset rfl hb
  refine Option.eq_none_iff_forall_ne_some.2 fun found hfound => ?_
  obtain ⟨q, hq, -⟩ := exists_reaches_of_matchAt? hfound
  obtain ⟨c, tail, htext, hc⟩ := hp _ q hq
  obtain ⟨d, b, rfl⟩ := List.exists_cons_of_ne_nil hb
  obtain rfl : d = c := (List.cons.inj htext).1
  rw [h d (by simp)] at hc
  cases hc

lemma quiet_of_not_mem {c : Char} (hp : StartsIn (· == c) pattern) (h : c ∉ xs) (rest : List Char) :
    Quiet pattern xs rest :=
  quiet_of_startsIn hp (fun d hd => by simpa using ne_of_mem_of_not_mem hd h) rest

/-- A pattern that may end in several places leads on in one way when what follows it starts in only one of them. -/
lemma EndsBefore.append (hf : EndsBefore accepts first) (hs : OneWay second) (hstart : StartsIn accepts second) :
    OneWay (first ++ second) := by
  rintro p q q' ⟨m, hm, hq⟩ ⟨m', hm', hq'⟩
  rw [hf p m m' hm hm' (hstart m q hq) (hstart m' q' hq')] at hq'
  exact hs m q q' hq hq'

lemma EndsBefore.group {index : ℕ} (h : EndsBefore accepts body) : EndsBefore accepts (group index body) := by
  rintro p _ _ ⟨m, hm, rfl⟩ ⟨m', hm', rfl⟩ hbefore hbefore'
  rw [h p m m' hm hm' hbefore hbefore']

/-- Before another character a run has taken all that it can. -/
lemma endsBefore_many : EndsBefore (fun c => !accepts c) (many accepts) := by
  rintro p _ _ ⟨xs, rest, hp, hxs, rfl⟩ ⟨xs', rest', hp', hxs', rfl⟩ hbefore hbefore'
  have htake {xs rest : List Char} (hxs : ∀ c ∈ xs, accepts c = true)
      (h : StandsBefore (fun c => !accepts c) (p.over xs rest)) :
      (xs ++ rest).takeWhile accepts = xs ∧ (xs ++ rest).dropWhile accepts = rest := by
    obtain ⟨c, tail, hrest, hc⟩ := h
    rw [Point.rest_over] at hrest
    rw [Bool.not_eq_true'] at hc
    rw [List.takeWhile_append_of_pos hxs, List.dropWhile_append_of_pos hxs, hrest]
    simp [hc]
  obtain ⟨hx, hr⟩ := htake hxs hbefore
  obtain ⟨hx', hr'⟩ := htake hxs' hbefore'
  rw [← hp] at hx hr
  rw [← hp'] at hx' hr'
  rw [← hx', ← hr', hx, hr]

/-- Before a character that starts no further round a repetition has gone on as long as it can. -/
lemma endsBefore_repeated (hb : OneWay body) (hstart : StartsIn (fun c => !accepts c) body) :
    EndsBefore accepts (repeated body) := by
  have hnot {p q : Point} (hq : Reaches body p q) (hp : StandsBefore accepts p) : False := by
    obtain ⟨c, rest, hrest, hc⟩ := hp
    obtain ⟨c', rest', hrest', hc'⟩ := hstart p q hq
    rw [hrest, List.cons.injEq] at hrest'
    simp [← hrest'.1, hc] at hc'
  have hsame {p q q' : Point} (hq : Relation.ReflTransGen (fun a b => Reaches body a b ∧ a.offset < b.offset) p q)
      (hq' : Relation.ReflTransGen (fun a b => Reaches body a b ∧ a.offset < b.offset) p q')
      (hbefore : StandsBefore accepts q) (hbefore' : StandsBefore accepts q') : q' = q := by
    induction hq using Relation.ReflTransGen.head_induction_on with
    | refl =>
      obtain rfl | ⟨m, hm, -⟩ := hq'.cases_head
      · rfl
      · exact (hnot hm.1 hbefore).elim
    | head hm _ ih =>
      obtain rfl | ⟨m', hm', hq'⟩ := hq'.cases_head
      · exact (hnot hm.1 hbefore').elim
      · rw [hb _ _ _ hm.1 hm'.1] at hq'
        exact ih hq'
  exact fun p q q' hq hq' hbefore hbefore' => hsame hq hq' hbefore hbefore'

/-! ## Elements -/

/-- An opening, attributes, and the attribute that is looked for. -/
def elementWith (opening sought : Pattern) : Pattern := opening ++ (few (· != '>') ++ (wordEdge ++ sought))

/-- From the place `m` on, the first time that the attribute is read is behind `lead`, up to `q`. -/
structure ReadsFirst (sought : Pattern) (m : Point) (lead rest : List Char) (q : Point) : Prop where
  text : m.rest = lead ++ rest
  inside : '>' ∉ lead
  first : ∀ a b, lead = a ++ b → b ≠ [] → (m.over a (b ++ rest)).atWordEdge = true →
    ∀ q, ¬ Reaches sought (m.over a (b ++ rest)) q
  edge : (m.over lead rest).atWordEdge = true
  reads : Reaches sought (m.over lead rest) q

lemma run_wordEdge_append (hp : p.atWordEdge = true) : run (wordEdge ++ sought) p next = run sought p next := by
  rw [run_append, run, if_pos hp]

theorem matchAt?_elementWith_iff (ho : OneWay opening) (hs : OneWay sought) :
    matchAt? (elementWith opening sought) before offset s = some found ↔
      ∃ m lead rest q, Reaches opening ⟨before, offset, s, []⟩ m ∧ ReadsFirst sought m lead rest q ∧
        found = ⟨⟨offset, q.offset, s⟩, q.groups⟩ := by
  let done : Point → Option Match := fun q => some ⟨⟨offset, q.offset, s⟩, q.groups⟩
  have hnot {p : Point} :
      run (wordEdge ++ sought) p done = none ↔ (p.atWordEdge = true → ∀ q, ¬ Reaches sought p q) := by
    constructor
    · intro hnone hedge q hq
      rw [run_wordEdge_append hedge, run_of_oneWay hs hq] at hnone
      cases hnone
    · intro h
      refine run_of_not_reaches ?_
      rintro q ⟨_, ⟨hedge, rfl⟩, hq⟩
      exact h hedge q hq
  have hinside {lead : List Char} : (∀ c ∈ lead, (c != '>') = true) ↔ '>' ∉ lead := by
    simp only [bne_iff_ne]
    exact ⟨fun h hmem => h _ hmem rfl, fun h c hc => ne_of_mem_of_not_mem hc h⟩
  constructor
  · intro h
    have hopening : run opening ⟨before, offset, s, []⟩
        (fun m => run (few (· != '>')) m fun q => run (wordEdge ++ sought) q done) = some found := h
    obtain ⟨m, hm, hrun⟩ := exists_reaches_of_run hopening
    obtain ⟨lead, rest, htext, hlead, hfirst, hrest⟩ := run_few_iff.1 hrun
    obtain ⟨q, ⟨_, ⟨hedge, rfl⟩, hq⟩, hfound⟩ := exists_reaches_of_run hrest
    exact ⟨m, lead, rest, q, hm, ⟨htext, hinside.1 hlead, fun a b hab hb => hnot.1 (hfirst a b hab hb), hedge, hq⟩,
      (Option.some.inj hfound).symm⟩
  · rintro ⟨m, lead, rest, q, hm, ⟨htext, hlead, hfirst, hedge, hq⟩, rfl⟩
    have hattributes : run (few (· != '>')) m (fun q => run (wordEdge ++ sought) q done) = done q :=
      run_few_iff.2 ⟨lead, rest, htext, hinside.2 hlead, fun a b hab hb => hnot.2 (hfirst a b hab hb),
        (run_wordEdge_append hedge).trans (run_of_oneWay hs hq)⟩
    exact (run_of_oneWay ho hm).trans hattributes

/-! ## Elements as texts -/

/-- The opening leads on along the texts of a kind, where no word goes on behind them. -/
structure Opens (opening : Pattern) (kind : List Char → Prop) : Prop where
  oneWay : OneWay opening
  nonempty : ∀ t, kind t → t ≠ []
  reaches_iff : ∀ p q, Reaches opening p q ↔ ∃ t rest, kind t ∧ p.rest = t ++ rest ∧ WordEnds rest ∧ q = p.over t rest

/-- The attribute leads on along the texts of a kind, and its groups remember the value. -/
structure Holds (sought : Pattern) (kind : List Char → List Char → Prop)
    (valueOf : List (ℕ × Capture) → Option (List Char)) : Prop where
  oneWay : OneWay sought
  reads : ∀ p q, Reaches sought p q → p.groups = [] → ∃ value t, kind value t ∧ p.rest = t ++ q.rest ∧
    q.offset = p.offset + t.length ∧ valueOf q.groups = some value
  leads : ∀ p value t rest, kind value t → p.rest = t ++ rest → p.groups = [] → ∃ q, Reaches sought p q ∧
    q.offset = p.offset + t.length ∧ valueOf q.groups = some value

/-- An element as it stands before `rest`: its opening, what is passed by, and the first such attribute. -/
structure IsElement (tags : List Char → Prop) (kind : List Char → List Char → Prop)
    (tag lead t rest value : List Char) : Prop where
  opens : tags tag
  holds : kind value t
  inside : '>' ∉ lead
  tagEnds : WordEnds (lead ++ (t ++ rest))
  edge : EdgeBetween (tag ++ lead) (t ++ rest)
  first : ∀ a b, lead = a ++ b → b ≠ [] → EdgeBetween (tag ++ a) (b ++ (t ++ rest)) →
    ∀ value' t' rest', kind value' t' → b ++ (t ++ rest) ≠ t' ++ rest'

variable {tags : List Char → Prop} {kind : List Char → List Char → Prop} {tag t value : List Char}
  {valueOf : List (ℕ × Capture) → Option (List Char)}

/-- A text with its value between two others. -/
def Enclosing (front kernel back : Pattern) (value t : List Char) : Prop :=
  ∃ xs zs, Spells front xs ∧ Spells kernel value ∧ Spells back zs ∧ t = xs ++ (value ++ zs)

/-- An attribute with one group remembers the text that the group covers. -/
lemma holds_enclosing {front kernel back : Pattern} {index : ℕ}
    (hone : OneWay (front ++ (group index kernel ++ back))) (hfront : Plain front) (hkernel : Plain kernel)
    (hback : Plain back) (hvalue : ∀ capture, valueOf [(index, capture)] = some capture.chars) :
    Holds (front ++ (group index kernel ++ back)) (Enclosing front kernel back) valueOf where
  oneWay := hone
  reads p q hq hp := by
    obtain ⟨_, hxs, _, ⟨_, hys, rfl⟩, hzs⟩ := hq
    obtain ⟨xs, tail, hx, hpx, rfl⟩ := (reaches_iff_of_plain hfront).1 hxs
    obtain ⟨ys, tail', hy, hpy, rfl⟩ := (reaches_iff_of_plain hkernel).1 hys
    obtain ⟨zs, rest, hz, hpz, rfl⟩ := (reaches_iff_of_plain hback).1 hzs
    have hpy : tail = ys ++ tail' := hpy
    have hpz : tail' = zs ++ rest := hpz
    subst hpy hpz
    refine ⟨ys, xs ++ (ys ++ zs), ⟨xs, zs, hx, hy, hz, rfl⟩, by simpa using hpx, ?_, ?_⟩
    · simp
      omega
    · simp only [Point.groups_over, hp, hvalue]
      exact congrArg some (chars_of_length (by simp) _)
  leads p value t rest ht hp hgroups := by
    obtain ⟨xs, zs, hx, hy, hz, rfl⟩ := ht
    have hp : p.rest = xs ++ (value ++ (zs ++ rest)) := by simpa using hp
    have hys := reaches_of_spells (p := p.over xs (value ++ (zs ++ rest))) hkernel hy rfl
    refine ⟨_, ⟨_, reaches_of_spells hfront hx hp, _, ⟨_, hys, rfl⟩, reaches_of_spells hback hz rfl⟩, ?_, ?_⟩
    · simp
      omega
    · simp only [Point.groups_over, hgroups, hvalue]
      exact congrArg some (chars_of_length (by simp) _)

/-- A fixed text before an attribute belongs to it. -/
lemma Holds.text_append (h : Holds sought kind valueOf) (s : String) :
    Holds (Pattern.text s ++ sought) (fun value t => ∃ u, kind value u ∧ t = s.toList ++ u) valueOf where
  oneWay := (oneWay_text s).append h.oneWay
  reads p q hq hp := by
    obtain ⟨_, hs, hq⟩ := hq
    obtain ⟨xs, rest, hx, hpx, rfl⟩ := (reaches_iff_of_plain (plain_text s)).1 hs
    obtain ⟨value, t, ht, hrest, hoffset, hvalue⟩ := h.reads _ q hq hp
    obtain rfl := spells_text.1 hx
    have hrest : rest = t ++ q.rest := hrest
    refine ⟨value, s.toList ++ t, ⟨t, ht, rfl⟩, by rw [hpx, hrest, List.append_assoc], ?_, hvalue⟩
    rw [hoffset]
    simp
    omega
  leads p value t rest ht hp hgroups := by
    obtain ⟨u, hu, rfl⟩ := ht
    rw [List.append_assoc] at hp
    have hs := reaches_of_spells (plain_text s) (spells_text.2 rfl) hp
    obtain ⟨q, hq, hoffset, hvalue⟩ := h.leads (p.over s.toList (u ++ rest)) value u rest hu rfl hgroups
    refine ⟨q, ⟨_, hs, hq⟩, ?_, hvalue⟩
    rw [hoffset]
    simp
    omega

/-- One of two attributes that start in different ways. -/
lemma Holds.orElse {first second : Pattern} {kind' : List Char → List Char → Prop} {accepts accepts' : Char → Bool}
    (hf : Holds first kind valueOf) (hs : Holds second kind' valueOf) (hfirst : StartsIn accepts first)
    (hsecond : StartsIn accepts' second) (hne : ∀ c, accepts c = true → accepts' c = false) :
    Holds (first <|> second) (fun value t => kind value t ∨ kind' value t) valueOf where
  oneWay := hf.oneWay.orElse hs.oneWay hfirst hsecond hne
  reads p q hq hp := by
    rcases hq with hq | hq
    · obtain ⟨value, t, ht, hread⟩ := hf.reads p q hq hp
      exact ⟨value, t, .inl ht, hread⟩
    · obtain ⟨value, t, ht, hread⟩ := hs.reads p q hq hp
      exact ⟨value, t, .inr ht, hread⟩
  leads p value t rest ht hp hgroups := by
    rcases ht with ht | ht
    · obtain ⟨q, hq, hread⟩ := hf.leads p value t rest ht hp hgroups
      exact ⟨q, .inl hq, hread⟩
    · obtain ⟨q, hq, hread⟩ := hs.leads p value t rest ht hp hgroups
      exact ⟨q, .inr hq, hread⟩

/-- A match of an element reads the first attribute. -/
theorem isElement_of_matchAt? (ho : Opens opening tags) (hs : Holds sought kind valueOf)
    (h : matchAt? (elementWith opening sought) before offset s = some found) :
    ∃ tag lead t rest value, s = tag ++ (lead ++ (t ++ rest)) ∧ IsElement tags kind tag lead t rest value ∧
      found.start = offset ∧ found.stop = offset + (tag ++ (lead ++ t)).length ∧ valueOf found.groups = some value := by
  obtain ⟨m, lead, tail, q, hm, hread, rfl⟩ := (matchAt?_elementWith_iff ho.oneWay hs.oneWay).1 h
  obtain ⟨tag, behind, htag, hs', hends, rfl⟩ := (ho.reaches_iff _ _).1 hm
  obtain ⟨value, t, ht, htail, hoffset, hvalue⟩ := hs.reads _ _ hread.reads rfl
  have hne (a : List Char) : tag ++ a ≠ [] := by simp [ho.nonempty tag htag]
  have htext : behind = lead ++ tail := hread.text
  have htail : tail = t ++ q.rest := htail
  subst htext htail
  refine ⟨tag, lead, t, q.rest, value, hs', ⟨htag, ht, hread.inside, hends, ?_, ?_⟩, rfl, ?_, hvalue⟩
  · have hedge := hread.edge
    rwa [Point.over_over, atWordEdge_over (hne lead)] at hedge
  · intro a b hab hb hedge value' t' rest' hkind htext
    have hfirst := hread.first a b hab hb
    rw [Point.over_over, atWordEdge_over (hne a)] at hfirst
    obtain ⟨q', hq', -⟩ := hs.leads (Point.over ⟨before, offset, s, []⟩ (tag ++ a) (b ++ (t ++ q.rest))) value' t' rest'
      hkind htext rfl
    exact hfirst hedge q' hq'
  · change q.offset = _
    rw [hoffset]
    simp
    omega

/-- Where an element stands it is found, with the value of the first attribute. -/
theorem matchAt?_of_isElement (ho : Opens opening tags) (hs : Holds sought kind valueOf)
    (h : IsElement tags kind tag lead t rest value) (before : Option Char) (offset : ℕ) :
    ∃ found, matchAt? (elementWith opening sought) before offset (tag ++ (lead ++ (t ++ rest))) = some found ∧
      found.stop = offset + (tag ++ (lead ++ t)).length ∧ valueOf found.groups = some value := by
  let start : Point := ⟨before, offset, tag ++ (lead ++ (t ++ rest)), []⟩
  let m : Point := start.over tag (lead ++ (t ++ rest))
  have hm : Reaches opening start m := (ho.reaches_iff _ _).2 ⟨tag, _, h.opens, rfl, h.tagEnds, rfl⟩
  have hne (a : List Char) : tag ++ a ≠ [] := by simp [ho.nonempty tag h.opens]
  have hover (a b : List Char) : m.over a b = start.over (tag ++ a) b := Point.over_over _ _ _ _ _
  obtain ⟨q, hq, hoffset, hvalue⟩ := hs.leads (m.over lead (t ++ rest)) value t rest h.holds rfl rfl
  have hread : ReadsFirst sought m lead (t ++ rest) q := by
    refine ⟨rfl, h.inside, ?_, ?_, hq⟩
    · intro a b hab hb hedge q' hq'
      rw [hover, atWordEdge_over (hne a)] at hedge
      obtain ⟨value', t', hkind, htext, -⟩ := hs.reads _ _ hq' rfl
      exact h.first a b hab hb hedge value' t' q'.rest hkind htext
    · rw [hover, atWordEdge_over (hne lead)]
      exact h.edge
  refine ⟨_, (matchAt?_elementWith_iff ho.oneWay hs.oneWay).2 ⟨m, lead, _, q, hm, hread, rfl⟩, ?_, hvalue⟩
  change q.offset = _
  rw [hoffset]
  simp [m, start]
  omega

end UiCatalog.Pattern
