import UiCatalog.DocComment.Block
import UiCatalog.Proofs.Declarations

/-!
# The comment of a declaration

The body of a comment holds no end of a comment, so a match starts at the comment right before the declaration,
wherever else in the source there are comments. That needs every opening in the text before it to be closed, and an
empty comment is not: its slash is read as the start of the body. The pattern tells a name from a longer one by a word
edge, while names may go on behind one with a dollar sign.
-/
namespace UiCatalog.DocBlock

open Text Pattern Code VariantConfig

variable {name : String} {t s xs ys rest rest' : List Char} {p q : Point}

/-! ## Bodies of comments -/

def opening : List Char := "/**".toList

def closing : List Char := "*/".toList

/-- The body of a comment: it holds no end of a comment, and no star at its end belongs to it. -/
def IsBody (t : List Char) : Prop := ¬ closing <:+: t ∧ t.getLast? ≠ some '*'

def IsStars (t : List Char) : Prop := t ≠ [] ∧ ∀ c ∈ t, (c == '*') = true

/-- No star is followed by a slash. -/
lemma not_closing_iff : ¬ closing <:+: t ↔ t.IsChain fun a b => ¬ (a = '*' ∧ b = '/') := by
  rw [List.isChain_iff_forall_rel_of_append_cons_cons]
  constructor
  · rintro h a b l₁ l₂ rfl ⟨rfl, rfl⟩
    exact h ⟨l₁, l₂, by simp [closing]⟩
  · rintro h ⟨l₁, l₂, rfl⟩
    have hsplit : l₁ ++ closing ++ l₂ = l₁ ++ '*' :: '/' :: l₂ := by simp [closing]
    exact h hsplit ⟨rfl, rfl⟩

lemma not_closing_append (hxs : ¬ closing <:+: xs) (hys : ¬ closing <:+: ys)
    (h : xs.getLast? = some '*' → ys.head? ≠ some '/') : ¬ closing <:+: xs ++ ys := by
  rw [not_closing_iff] at hxs hys ⊢
  refine List.isChain_append.2 ⟨hxs, hys, fun a ha b hb hab => ?_⟩
  exact h (hab.1 ▸ ha) (hab.2 ▸ hb)

lemma not_closing_of_not_mem (h : '/' ∉ t) : ¬ closing <:+: t := by
  rintro ⟨a, b, rfl⟩
  exact h (by simp [closing])

lemma IsStars.no_slash (h : IsStars t) : '/' ∉ t := fun hmem => absurd (h.2 _ hmem) (by decide)

/-- What can stand between the opening and the slash at the end. -/
lemma not_closing_body_stars (hy : IsBody xs) (hs : IsStars s) : ¬ closing <:+: xs ++ s :=
  not_closing_append hy.1 (not_closing_of_not_mem hs.no_slash) fun hlast => absurd hlast hy.2

/-- A text that holds the end of a comment reaches as far as the first one. -/
lemma exists_behind_end (hxs : ¬ closing <:+: xs) (hs : closing <:+: s) (h : xs ++ '/' :: rest = s ++ rest') :
    ∃ t, s = xs ++ '/' :: t ∧ rest = t ++ rest' := by
  rcases List.append_eq_append_iff.1 h with ⟨t, rfl, ht⟩ | ⟨t, rfl, -⟩
  · cases t with
    | nil => exact absurd (by simpa using hs) hxs
    | cons c t =>
      rw [List.cons_append, List.cons.injEq] at ht
      obtain ⟨rfl, rfl⟩ := ht
      exact ⟨t, rfl, rfl⟩
  · exact absurd (hs.trans (List.prefix_append s t).isInfix) hxs

lemma closing_of_star (h : xs.getLast? = some '*') : closing <:+: xs ++ ['/'] := by
  obtain ⟨ys, rfl⟩ := List.getLast?_eq_some_iff.1 h
  exact ⟨ys, [], by simp [closing]⟩

/-- The first end of a comment is in one place. -/
lemma first_end (hxs : ¬ closing <:+: xs) (hys : ¬ closing <:+: ys) (hxl : xs.getLast? = some '*')
    (hyl : ys.getLast? = some '*') (h : xs ++ '/' :: rest = ys ++ '/' :: rest') : xs = ys := by
  have split (t u : List Char) : t ++ '/' :: u = t ++ ['/'] ++ u := by simp
  obtain ⟨a, ha, -⟩ := exists_behind_end hxs (closing_of_star hyl) (h.trans (split ys rest'))
  obtain ⟨b, hb, -⟩ := exists_behind_end hys (closing_of_star hxl) (h.symm.trans (split xs rest))
  have hlength : xs.length = ys.length := by
    have hax := congrArg List.length ha
    have hbx := congrArg List.length hb
    simp only [List.length_append, List.length_cons, List.length_nil] at hax hbx
    omega
  exact (List.append_inj h hlength).1

lemma getLast?_stars (hs : IsStars s) (xs : List Char) : (xs ++ s).getLast? = some '*' := by
  rw [List.getLast?_append_of_ne_nil xs hs.1, List.getLast?_eq_some_getLast hs.1]
  exact congrArg some (beq_iff_eq.1 (hs.2 _ (List.getLast_mem hs.1)))

/-- A comment has one body. -/
lemma body_unique (hx : IsBody xs) (hy : IsBody ys) (hs : IsStars s) (ht : IsStars t)
    (h : xs ++ (s ++ '/' :: rest) = ys ++ (t ++ '/' :: rest')) : xs = ys := by
  simp only [← List.append_assoc] at h
  have hsame := first_end (not_closing_body_stars hx hs) (not_closing_body_stars hy ht) (getLast?_stars hs xs)
    (getLast?_stars ht ys) h
  have hlast {zs : List Char} (hz : IsBody zs) : ∀ c ∈ zs.getLast?, (c == '*') = false := by
    intro c hc
    exact beq_false_of_ne fun heq => hz.2 (heq ▸ hc)
  exact (append_cancel_run hs.2 ht.2 (hlast hx) (hlast hy) hsame).1

/-! ## The pattern of a body -/

/-- A step through the body: a character that is no star, or stars and then neither star nor slash. -/
def bodyStep : Pattern := one (noneOf "*") <|> (many1 (· == '*') ++ one (noneOf "*/"))

lemma spells_bodyStep : Spells bodyStep xs ↔ (∃ c, c ≠ '*' ∧ xs = [c]) ∨
    ∃ stars c, IsStars stars ∧ c ≠ '*' ∧ c ≠ '/' ∧ xs = stars ++ [c] := by
  have hone {c : Char} : noneOf "*" c = true ↔ c ≠ '*' := by rw [noneOf_iff]; simp
  have htwo {c : Char} : noneOf "*/" c = true ↔ c ≠ '*' ∧ c ≠ '/' := by rw [noneOf_iff]; simp
  rw [bodyStep, spells_orElse, spells_append]
  simp only [spells_one, spells_many1, hone, htwo, IsStars]
  refine or_congr Iff.rfl ⟨?_, ?_⟩
  · rintro ⟨stars, _, hstars, ⟨c, hc, rfl⟩, rfl⟩
    exact ⟨stars, c, hstars, hc.1, hc.2, rfl⟩
  · rintro ⟨stars, c, hstars, hstar, hslash, rfl⟩
    exact ⟨stars, [c], hstars, ⟨c, ⟨hstar, hslash⟩, rfl⟩, rfl⟩

lemma isBody_nil : IsBody [] := ⟨by simp [closing], by simp⟩

lemma IsBody.append (hx : IsBody xs) (hy : IsBody ys) : IsBody (xs ++ ys) := by
  refine ⟨not_closing_append hx.1 hy.1 fun h => absurd h hx.2, ?_⟩
  rw [List.getLast?_append]
  cases hlast : ys.getLast? with
  | none => exact hx.2
  | some c => simpa [hlast] using hy.2

lemma IsBody.of_append (h : IsBody (xs ++ ys)) : IsBody ys := by
  refine ⟨fun hin => h.1 (hin.trans (List.suffix_append xs ys).isInfix), ?_⟩
  cases ys with
  | nil => simp
  | cons c cs =>
    have hlast := h.2
    rwa [List.getLast?_append_of_ne_nil xs (List.cons_ne_nil c cs)] at hlast

lemma isBody_of_step (h : Spells bodyStep xs) : IsBody xs := by
  rcases spells_bodyStep.1 h with ⟨c, hc, rfl⟩ | ⟨stars, c, hstars, hstar, hslash, rfl⟩
  · exact ⟨by simp [not_closing_iff], by simpa using hc⟩
  · exact ⟨not_closing_append (not_closing_of_not_mem hstars.no_slash) (by simp [not_closing_iff])
      fun _ => by simpa using hslash, by simpa using hstar⟩

/-- A body that starts with stars goes on with a character that does not end the comment. -/
lemma exists_step_of_stars (h : IsBody ('*' :: xs)) :
    ∃ step ys, Spells bodyStep step ∧ step ≠ [] ∧ '*' :: xs = step ++ ys := by
  obtain ⟨stars, hdef⟩ : ∃ stars, stars = ('*' :: xs).takeWhile (· == '*') := ⟨_, rfl⟩
  have hsplit : stars ++ ('*' :: xs).dropWhile (· == '*') = '*' :: xs := by
    rw [hdef, List.takeWhile_append_dropWhile]
  have hstars : IsStars stars := by
    rw [hdef]
    exact ⟨by simp, fun c hc => List.mem_takeWhile_imp (p := (· == '*')) hc⟩
  have hend : stars.getLast? = some '*' := by simpa using getLast?_stars hstars []
  cases hrest : ('*' :: xs).dropWhile (· == '*') with
  | nil =>
    rw [hrest, List.append_nil] at hsplit
    exact absurd (hsplit ▸ hend) h.2
  | cons d ds =>
    have hd : d ≠ '*' := by
      have hhead := List.head_dropWhile_not (· == '*') (l := '*' :: xs) (by simp [hrest])
      simpa [hrest] using hhead
    rw [hrest] at hsplit
    have hslash : d ≠ '/' := by
      rintro rfl
      refine h.1 ?_
      rw [← hsplit]
      exact (closing_of_star hend).trans ⟨[], ds, by simp⟩
    exact ⟨stars ++ [d], ds, spells_bodyStep.2 (.inr ⟨stars, d, hstars, hd, hslash, rfl⟩), by simp,
      by simpa using hsplit.symm⟩

lemma spells_body : Spells (repeated bodyStep) xs ↔ IsBody xs := by
  constructor
  · rintro ⟨parts, hparts, rfl⟩
    induction parts with
    | nil => exact isBody_nil
    | cons part parts ih =>
      obtain ⟨hpart, hothers⟩ := List.forall_mem_cons.1 hparts
      exact (isBody_of_step hpart).append (ih hothers)
  · intro h
    induction hlength : xs.length using Nat.strong_induction_on generalizing xs with
    | _ n ih =>
      cases xs with
      | nil => exact ⟨[], by simp, rfl⟩
      | cons c cs =>
        obtain ⟨step, ys, hstep, hne, heq⟩ : ∃ step ys, Spells bodyStep step ∧ step ≠ [] ∧ c :: cs = step ++ ys := by
          by_cases hc : c = '*'
          · subst hc
            exact exists_step_of_stars h
          · exact ⟨[c], cs, spells_bodyStep.2 (.inl ⟨c, hc, rfl⟩), by simp, rfl⟩
        have hless : ys.length < n := by
          have hpos := List.length_pos_iff.2 hne
          rw [← hlength, heq, List.length_append]
          omega
        obtain ⟨parts, hparts, rfl⟩ := ih _ hless (heq ▸ h).of_append rfl
        exact ⟨step :: parts, List.forall_mem_cons.2 ⟨hstep, hparts⟩, heq⟩

/-! ## The pattern of a comment -/

lemma plain_body : Plain (repeated bodyStep) := by
  change Plain bodyStep
  simp [bodyStep]

/-- Where the pattern leads, a comment ends, and its body is remembered. -/
lemma exists_of_reaches_comment (h : Reaches commentPattern p q) : ∃ body stars, IsBody body ∧ IsStars stars ∧
    p.rest = opening ++ (body ++ (stars ++ '/' :: q.rest)) ∧
    q.groups = (1, ⟨p.offset + 3, p.offset + 3 + body.length, body ++ (stars ++ '/' :: q.rest)⟩) :: p.groups := by
  obtain ⟨_, ⟨_, ⟨_, hopening, _, hinside, rfl⟩, hrun⟩, hslash⟩ := h
  obtain ⟨xs, _, hxs, hp, rfl⟩ := (reaches_iff_of_plain (plain_text "/**")).1 hopening
  obtain rfl := spells_text.1 hxs
  obtain ⟨body, _, hbody, hr, rfl⟩ := (reaches_iff_of_plain plain_body).1 hinside
  obtain ⟨stars, _, hstars, hr', rfl⟩ := (reaches_iff_of_plain plain_many1).1 hrun
  obtain ⟨xs, rest, hxs, hr'', rfl⟩ := (reaches_iff_of_plain (plain_char '/')).1 hslash
  obtain rfl := spells_char.1 hxs
  simp only [Point.rest_over] at hr hr' hr''
  subst hr'' hr' hr
  exact ⟨body, stars, spells_body.1 hbody, spells_many1.1 hstars, hp, rfl⟩

/-- The pattern leads behind every comment. -/
lemma exists_reaches_comment {body stars : List Char} (hbody : IsBody body) (hstars : IsStars stars)
    (hp : p.rest = opening ++ (body ++ (stars ++ '/' :: rest))) : ∃ q, Reaches commentPattern p q ∧ q.rest = rest := by
  have hopening := reaches_of_spells (plain_text "/**") (spells_text.2 rfl) hp
  have hinside : Reaches (group 1 (repeated bodyStep)) (p.over opening (body ++ (stars ++ '/' :: rest))) _ :=
    ⟨_, reaches_of_spells plain_body (spells_body.2 hbody) rfl, rfl⟩
  exact ⟨_, ⟨_, ⟨_, ⟨_, hopening, hinside⟩, reaches_of_spells plain_many1 (spells_many1.2 hstars) rfl⟩,
    reaches_of_spells (plain_char '/') (spells_char.2 rfl) rfl⟩, rfl⟩

/-! ## Declarations -/

/-- A word with a gap behind it, or nothing. -/
def MaybeWord (word t : List Char) : Prop := t = [] ∨ ∃ w, IsGap w ∧ t = word ++ w

/-- What may stand before a declaration that is exported. -/
def ExportWords (t : List Char) : Prop :=
  ∃ e d, MaybeWord "export".toList e ∧ MaybeWord "default".toList d ∧ t = e ++ d

/-- The start of a text is a component: a wrapped one, a function, or an arrow function. -/
inductive ComponentValue : List Char → Prop
  | wrapped {qualifier wrapper behind} : qualifier = [] ∨ qualifier = "React.".toList →
      wrapper = "forwardRef".toList ∨ wrapper = "memo".toList → WordEnds behind →
      ComponentValue (qualifier ++ (wrapper ++ behind))
  | function {word behind} : word = "function".toList ∨ word = "async".toList → WordEnds behind →
      ComponentValue (word ++ behind)
  | parameters {behind} : ComponentValue ('(' :: behind)
  | parameter {parameter w behind} : IsIdentifier parameter → IsSpace w →
      ComponentValue (parameter ++ (w ++ ("=>".toList ++ behind)))

/-- The text starts with the declaration of `name` as a component. -/
inductive Declares (name : List Char) : List Char → Prop
  | function {async w behind} : MaybeWord "async".toList async → IsGap w → (∀ c ∈ name.getLast?, isWord c = true) →
      NameEnds behind → Declares name (async ++ ("function".toList ++ (w ++ (name ++ behind))))
  | binding {head value} : BindingHead name head → ComponentValue value → Declares name (head ++ value)

/-- What may stand between a comment and the keyword of a declaration. -/
def IsLead (t : List Char) : Prop :=
  ∃ w e async, IsSpace w ∧ ExportWords e ∧ MaybeWord "async".toList async ∧ t = w ++ (e ++ async)

/-- Right behind the end of a comment in the text `name` is declared, be it in a string or in another comment. -/
def DeclaredBehindComment (name text : List Char) : Prop :=
  ∃ a lead keyword w v, IsLead lead ∧ keyword ∈ "function".toList :: keywords ∧ IsGap w ∧ NameEnds v ∧
    text = a ++ (closing ++ (lead ++ (keyword ++ (w ++ (name ++ v)))))

/-- No function is declared there whose name goes on behind `name` and a word edge. -/
def ReadsWhole (name text : List Char) : Prop :=
  ∀ a lead w v, IsLead lead → IsGap w → text = a ++ (closing ++ (lead ++ ("function".toList ++ (w ++ (name ++ v))))) →
    EdgeBetween name v → NameEnds v

/-- Behind every opening of a comment in the text stands an end, at the latest with a slash right behind the text. -/
def Closed (text : List Char) : Prop := ∀ a x, text = a ++ (opening ++ x) → closing <:+: x ++ ['/']

/-- A text without the name declares it nowhere. -/
lemma not_declared_of_not_infix {name text : List Char} (h : ¬ name <:+: text) :
    ¬ DeclaredBehindComment name text ∧ ReadsWhole name text := by
  constructor
  · rintro ⟨a, lead, keyword, w, v, -, -, -, -, rfl⟩
    exact h ⟨a ++ (closing ++ (lead ++ (keyword ++ w))), v, by simp⟩
  · rintro a lead w v - - rfl -
    exact absurd ⟨a ++ (closing ++ (lead ++ ("function".toList ++ w))), v, by simp⟩ h

lemma closed_iff {text : List Char} :
    Closed text ↔ ∀ s ∈ text.tails, opening <+: s → closing <:+: s.drop opening.length ++ ['/'] := by
  constructor
  · rintro h _ hs ⟨x, rfl⟩
    obtain ⟨a, rfl⟩ := (List.mem_tails _ _).1 hs
    rw [List.drop_left]
    exact h a x rfl
  · rintro h a x rfl
    have hx := h (opening ++ x) ((List.mem_tails _ _).2 (List.suffix_append a _)) (List.prefix_append opening x)
    rwa [List.drop_left] at hx

instance (text : List Char) : Decidable (Closed text) := decidable_of_iff _ closed_iff.symm

/-! ## Where the pattern leads -/

lemma not_mem_maybeWord {c : Char} {word : List Char} (hword : c ∉ word) (hc : isBlank c = false)
    (h : MaybeWord word t) : c ∉ t := by
  rcases h with rfl | ⟨w, hw, rfl⟩
  · exact List.not_mem_nil
  · simp [hword, not_mem_of_isSpace hw.1 hc]

lemma IsLead.not_mem {lead : List Char} (h : IsLead lead) : ∀ c ∈ ['/', '*'], c ∉ lead := by
  obtain ⟨w, _, async, hw, ⟨e, d, he, hd, rfl⟩, hasync, rfl⟩ := h
  have hmarks : ∀ c ∈ ['/', '*'],
      isBlank c = false ∧ c ∉ "export".toList ∧ c ∉ "default".toList ∧ c ∉ "async".toList := by
    decide
  intro c hc
  obtain ⟨hblank, hexport, hdefault, hasyncFree⟩ := hmarks c hc
  simp only [List.mem_append, not_or]
  exact ⟨not_mem_of_isSpace hw hblank, ⟨not_mem_maybeWord hexport hblank he, not_mem_maybeWord hdefault hblank hd⟩,
    not_mem_maybeWord hasyncFree hblank hasync⟩

lemma spells_maybeWord {word : String} :
    Spells (Pattern.optional (text word ++ gap)) xs ↔ MaybeWord word.toList xs := by
  rw [spells_optional, or_comm, spells_append]
  simp only [spells_text, spells_gap_iff]
  refine or_congr Iff.rfl ⟨?_, ?_⟩
  · rintro ⟨_, w, rfl, hw, rfl⟩
    exact ⟨w, hw, rfl⟩
  · rintro ⟨w, hw, rfl⟩
    exact ⟨_, w, rfl, hw, rfl⟩

/-- How far a declaration with a keyword is read behind its name. -/
def ReadsTo (keyword name v : List Char) : Prop :=
  (keyword = "function".toList ∧ EdgeBetween name v) ∨ (keyword ∈ keywords ∧ NameEnds v)

/-- The text starts with a comment and, behind it, a declaration as far as it is read. -/
def Attached (name body s : List Char) : Prop :=
  ∃ stars lead keyword w v, IsBody body ∧ IsStars stars ∧ IsLead lead ∧ IsGap w ∧ ReadsTo keyword name v ∧
    s = opening ++ (body ++ (stars ++ '/' :: (lead ++ (keyword ++ (w ++ (name ++ v))))))

lemma exists_of_reaches_declaration {name : String} (hname : name.toList ≠ [])
    (h : Reaches (declarationPattern name) p q) : ∃ async keyword w v, MaybeWord "async".toList async ∧ IsGap w ∧
      ReadsTo keyword name.toList v ∧ p.rest = async ++ (keyword ++ (w ++ (name.toList ++ v))) := by
  rcases h with ⟨_, hread, hedge, -⟩ | ⟨_, hread, -⟩
  · obtain ⟨_, v, hspells, hp, rfl⟩ := (reaches_iff_of_plain (by simp)).1 hread
    simp only [spells_append, spells_maybeWord, spells_text, spells_gap_iff] at hspells
    obtain ⟨_, _, ⟨_, w, ⟨async, _, hasync, rfl, rfl⟩, hw, rfl⟩, rfl, rfl⟩ := hspells
    rw [atWordEdge_over (by simp), edgeBetween_append _ hname] at hedge
    exact ⟨async, _, w, v, hasync, hw, .inl ⟨rfl, hedge⟩, by simpa using hp⟩
  · obtain ⟨_, rest, hspells, hp, rfl⟩ := (reaches_iff_of_plain (plain_bindingHead name)).1 hread
    obtain ⟨keyword, w, u, ascription, v, hk, hw, hu, hascription, -, rfl⟩ := spells_bindingHead.1 hspells
    exact ⟨[], keyword, w, u ++ (ascription ++ '=' :: (v ++ rest)), .inl rfl, hw,
      .inr ⟨hk, nameEnds_of_bindingTail hu hascription⟩, by simpa using hp⟩

lemma groupFree_declarationPattern (name : String) : GroupFree (declarationPattern name) := by
  have hvalue : GroupFree componentValue :=
    ⟨⟨Plain.groupFree (by simp), trivial⟩, groupFree_wholeWord _, groupFree_wholeWord _,
      (plain_char _).groupFree, Plain.groupFree (by simp [arrow])⟩
  exact ⟨⟨Plain.groupFree (by simp), trivial⟩, (plain_bindingHead name).groupFree, hvalue⟩

/-- A match is at a comment with the declaration behind it, and remembers the body of that comment. -/
lemma exists_attached_of_reaches {name : String} (hname : name.toList ≠ []) (hp : p.groups = [])
    (h : Reaches (attachedPattern name) p q) :
    ∃ body, Attached name.toList body p.rest ∧ ∀ whole, (⟨whole, q.groups⟩ : Match).get 1 = body := by
  obtain ⟨_, ⟨_, ⟨_, ⟨m, hcomment, hblanks⟩, hexport⟩, hdefault⟩, hdeclaration⟩ := h
  obtain ⟨body, stars, hbody, hstars, hstart, hgroups⟩ := exists_of_reaches_comment hcomment
  have hq := groups_of_reaches (groupFree_declarationPattern name) hdeclaration
  obtain ⟨b, _, hb, hr, rfl⟩ := (reaches_iff_of_plain plain_blanks).1 hblanks
  obtain ⟨e, _, he, hr', rfl⟩ := (reaches_iff_of_plain (by simp)).1 hexport
  obtain ⟨d, _, hd, hr'', rfl⟩ := (reaches_iff_of_plain (by simp)).1 hdefault
  obtain ⟨async, keyword, w, v, hasync, hw, hreads, hrest⟩ := exists_of_reaches_declaration hname hdeclaration
  simp only [Point.rest_over] at hr' hr'' hrest
  have hlead : IsLead (b ++ (e ++ d ++ async)) :=
    ⟨b, _, async, hb, ⟨e, d, spells_maybeWord.1 he, spells_maybeWord.1 hd, rfl⟩, hasync, rfl⟩
  refine ⟨body, ⟨stars, _, keyword, w, v, hbody, hstars, hlead, hw, hreads, ?_⟩, fun whole => ?_⟩
  · rw [hstart, hr, hr', hr'', hrest]
    simp
  · rw [hq]
    simp only [Point.groups_over]
    rw [hgroups, hp]
    exact get_one_of_length rfl _

/-! ## Where the pattern leads on -/

lemma spells_wrapper :
    Spells (text "forwardRef" <|> text "memo") xs ↔ xs = "forwardRef".toList ∨ xs = "memo".toList := by
  simp

/-- The pattern leads on from every component. -/
lemma exists_reaches_componentValue (hp : p.rest = t) (h : ComponentValue t) : ∃ q, Reaches componentValue p q := by
  cases h with
  | @wrapped scope wrapper behind hqualifier hwrapper hends =>
    obtain ⟨hne, hword⟩ : wrapper ≠ [] ∧ ∀ c ∈ wrapper.getLast?, isWord c = true := by
      rcases hwrapper with rfl | rfl <;> simp [isWord]
    rw [← List.append_assoc] at hp
    have hread : Spells (qualifier ++ (text "forwardRef" <|> text "memo")) (scope ++ wrapper) :=
      ⟨_, _, spells_qualifier.2 hqualifier, spells_wrapper.2 hwrapper, rfl⟩
    have hedge : EdgeBetween (scope ++ wrapper) behind :=
      (edgeBetween_append _ hne).2 ((edgeBetween_iff hword hne).2 hends)
    exact ⟨_, .inl ⟨_, reaches_of_spells (by simp) hread hp, (atWordEdge_over (by simp [hne])).2 hedge, rfl⟩⟩
  | @function word behind hword hends =>
    rcases hword with rfl | rfl
    · exact ⟨_, .inr (.inl ((reaches_wholeWord _ (by simp [isWord]) (by decide)).2 ⟨behind, hp, hends, rfl⟩))⟩
    · exact ⟨_, .inr (.inr (.inl ((reaches_wholeWord _ (by simp [isWord]) (by decide)).2 ⟨behind, hp, hends, rfl⟩)))⟩
  | parameters => exact ⟨_, .inr (.inr (.inr (.inl (reaches_of_spells (plain_char '(') (spells_char.2 rfl) hp))))⟩
  | @parameter parameter w behind hparameter hw =>
    have hread : Spells (identifier ++ blanks ++ arrow) (parameter ++ w ++ "=>".toList) :=
      ⟨_, _, ⟨_, _, spells_identifier_iff.2 hparameter, spells_blanks.2 hw, rfl⟩, spells_text.2 rfl, rfl⟩
    have hp' : p.rest = parameter ++ w ++ "=>".toList ++ behind := by simpa using hp
    exact ⟨_, .inr (.inr (.inr (.inr (reaches_of_spells (by simp [arrow]) hread hp'))))⟩

/-- The pattern leads on from every declaration. -/
lemma exists_reaches_declaration {name : String} (hname : name.toList ≠ []) (hp : p.rest = t)
    (h : Declares name.toList t) : ∃ q, Reaches (declarationPattern name) p q := by
  cases h with
  | @function async w behind hasync hw hlast hends =>
    have hread : Spells (Pattern.optional (text "async" ++ gap) ++ text "function" ++ gap ++ text name)
        (async ++ "function".toList ++ w ++ name.toList) :=
      ⟨_, _, ⟨_, _, ⟨_, _, spells_maybeWord.2 hasync, spells_text.2 rfl, rfl⟩, spells_gap_iff.2 hw, rfl⟩,
        spells_text.2 rfl, rfl⟩
    have hp' : p.rest = async ++ "function".toList ++ w ++ name.toList ++ behind := by simpa using hp
    have hover := reaches_of_spells (by simp) hread hp'
    have hedge : EdgeBetween (async ++ "function".toList ++ w ++ name.toList) behind :=
      (edgeBetween_append _ hname).2 ((edgeBetween_iff hlast hname).2 hends.wordEnds)
    exact ⟨_, .inl ⟨_, hover, (atWordEdge_over (by simp)).2 hedge, rfl⟩⟩
  | @binding head value hhead hvalue =>
    have hover := reaches_of_spells (plain_bindingHead name) (spells_bindingHead.2 hhead) hp
    obtain ⟨q, hq⟩ := exists_reaches_componentValue (p := p.over head value) rfl hvalue
    exact ⟨q, .inr ⟨_, hover, hq⟩⟩

/-- The pattern leads on from a comment with the declaration behind it. -/
lemma exists_reaches_attached {name : String} (hname : name.toList ≠ []) {body stars w e : List Char}
    (hbody : IsBody body) (hstars : IsStars stars) (hw : IsSpace w) (he : ExportWords e) (ht : Declares name.toList t)
    (hp : p.rest = opening ++ (body ++ (stars ++ '/' :: (w ++ (e ++ t))))) :
    ∃ q, Reaches (attachedPattern name) p q := by
  obtain ⟨e, d, hexport, hdefault, rfl⟩ := he
  rw [List.append_assoc e d t] at hp
  obtain ⟨m, hcomment, hm⟩ := exists_reaches_comment hbody hstars hp
  have hblanks := reaches_of_spells plain_blanks (spells_blanks.2 hw) hm
  have hm₁ : (m.over w (e ++ (d ++ t))).rest = e ++ (d ++ t) := rfl
  have hexport' := reaches_of_spells (by simp) (spells_maybeWord.2 hexport) hm₁
  have hm₂ : ((m.over w (e ++ (d ++ t))).over e (d ++ t)).rest = d ++ t := rfl
  have hdefault' := reaches_of_spells (by simp) (spells_maybeWord.2 hdefault) hm₂
  obtain ⟨q, hq⟩ := exists_reaches_declaration (p := ((m.over w (e ++ (d ++ t))).over e (d ++ t)).over d t) hname rfl ht
  exact ⟨q, _, ⟨_, ⟨_, ⟨_, hcomment, hblanks⟩, hexport'⟩, hdefault'⟩, hq⟩

/-! ## What is read is declared -/

section Reading

variable {name : List Char} {keyword lead w u v : List Char}

lemma ReadsTo.mem (h : ReadsTo keyword name v) : keyword ∈ "function".toList :: keywords :=
  h.elim (fun h => h.1 ▸ List.mem_cons_self) fun h => List.mem_cons_of_mem _ h.1

/-- A slash behind the name reads like the end of the text. -/
lemma ReadsTo.of_slash (h : ReadsTo keyword name (v ++ '/' :: rest)) : ReadsTo keyword name v := by
  cases v with
  | nil =>
    refine h.imp (fun h => ⟨h.1, ?_⟩) fun h => ⟨h.1, by simp [NameEnds]⟩
    simpa [EdgeBetween, isWord] using h.2
  | cons c v => exact h

lemma declared_of_readsTo {a stars text : List Char} (hwhole : ReadsWhole name text) (hstars : IsStars stars)
    (hlead : IsLead lead) (hw : IsGap w) (hreads : ReadsTo keyword name v)
    (h : text = a ++ stars ++ '/' :: (lead ++ (keyword ++ (w ++ (name ++ v))))) : DeclaredBehindComment name text := by
  obtain ⟨b, hb⟩ := List.getLast?_eq_some_iff.1 (getLast?_stars hstars a)
  have hsplit : text = b ++ (closing ++ (lead ++ (keyword ++ (w ++ (name ++ v))))) := by
    rw [h, hb]
    simp [closing]
  refine ⟨b, lead, keyword, w, v, hlead, hreads.mem, hw, ?_, hsplit⟩
  rcases hreads with ⟨rfl, hedge⟩ | ⟨-, hends⟩
  · exact hwhole b lead w v hlead hw hsplit hedge
  · exact hends

lemma declared_of_attached {body s : List Char} (hwhole : ReadsWhole name (u ++ s)) (h : Attached name body s) :
    DeclaredBehindComment name (u ++ s) := by
  obtain ⟨stars, lead, keyword, w, v, -, hstars, hlead, hw, hreads, rfl⟩ := h
  exact declared_of_readsTo (a := u ++ opening ++ body) hwhole hstars hlead hw hreads (by simp)

lemma exists_behind {c : Char} {zs : List Char} (hc : c ∉ xs) (h : xs ++ ys = zs ++ c :: rest) :
    ∃ t, zs = xs ++ t ∧ ys = t ++ c :: rest := by
  rcases List.append_eq_append_iff.1 h with ⟨t, rfl, hy⟩ | ⟨t, rfl, hy⟩
  · exact ⟨t, rfl, hy⟩
  · cases t with
    | nil => exact ⟨[], by simp, hy.symm⟩
    | cons d t =>
      rw [List.cons_append, List.cons.injEq] at hy
      exact absurd (by simp [hy.1]) hc

/-- Two openings do not overlap. -/
lemma exists_of_opening (hne : v ≠ []) (h : v ++ (opening ++ rest) = opening ++ rest') : ∃ x, v = opening ++ x := by
  match v with
  | [_] | [_, _] => simp [opening] at h
  | _ :: _ :: _ :: x =>
    obtain ⟨rfl, rfl, rfl, -⟩ := by simpa [opening] using h
    exact ⟨x, rfl⟩

/-- What is read behind a comment, up to the name, holds no mark of a comment. -/
lemma not_mem_read (hname : IsName name) (hlead : IsLead lead) (hw : IsGap w) (hreads : ReadsTo keyword name v) :
    lead ++ (keyword ++ (w ++ name)) ≠ [] ∧ ∀ c ∈ ['/', '*'], c ∉ lead ++ (keyword ++ (w ++ name)) := by
  have hkeywords : ∀ k ∈ "function".toList :: keywords, k ≠ [] ∧ ∀ c ∈ ['/', '*'], c ∉ k := by decide
  have hmarks : ∀ c ∈ ['/', '*'], isBlank c = false ∧ isIdentifierPart c = false := by decide
  obtain ⟨hne, hkeyword⟩ := hkeywords keyword hreads.mem
  refine ⟨by simp [hne], fun c hc => ?_⟩
  obtain ⟨hblank, hpart⟩ := hmarks c hc
  have hnameFree : c ∉ name := fun hmem => absurd (hname.2 c hmem) (by simp [hpart])
  simp only [List.mem_append, not_or]
  exact ⟨hlead.not_mem c hc, hkeyword c hc, not_mem_of_isSpace hw.1 hblank, hnameFree⟩

/-- No comment with the declaration behind it starts where every comment is closed and nothing is declared. -/
lemma not_attached_before {body : List Char} (hname : IsName name) (hdeclared : ¬ DeclaredBehindComment name (u ++ v))
    (hwhole : ReadsWhole name (u ++ v)) (hclosed : Closed (u ++ v)) (hne : v ≠ []) :
    ¬ Attached name body (v ++ (opening ++ rest)) := by
  rintro ⟨stars, lead, keyword, w, v', hbody, hstars, hlead, hw, hreads, h⟩
  obtain ⟨x, rfl⟩ := exists_of_opening hne h
  obtain ⟨hne', hfree⟩ := not_mem_read hname hlead hw hreads
  -- the comment that starts here ends before the opening that follows
  have hend := hclosed u x rfl
  have hsame : (body ++ stars) ++ '/' :: (lead ++ (keyword ++ (w ++ (name ++ v')))) =
      (x ++ ['/']) ++ ("**".toList ++ rest) := by
    have h' := List.append_cancel_left ((List.append_assoc opening x _).symm.trans h)
    simpa [opening] using h'.symm
  obtain ⟨t, hx, ht⟩ := exists_behind_end (not_closing_body_stars hbody hstars) hend hsame
  have hsplit : lead ++ (keyword ++ (w ++ (name ++ v'))) = lead ++ (keyword ++ (w ++ name)) ++ v' := by simp
  rw [hsplit] at ht
  rcases List.eq_nil_or_concat t with rfl | ⟨t, c, rfl⟩
  · obtain ⟨d, ds, hread⟩ := List.exists_cons_of_ne_nil hne'
    rw [hread, List.cons_append] at ht
    exact hfree '*' (by simp) (by rw [hread, (List.cons.inj ht).1]; exact List.mem_cons_self)
  · obtain ⟨rfl, hc⟩ := List.append_inj' (hx.trans (by simp : _ = (body ++ stars ++ '/' :: t) ++ [c])) rfl
    obtain rfl : '/' = c := (List.cons.inj hc).1
    have ht' : lead ++ (keyword ++ (w ++ name)) ++ v' = t ++ '/' :: ("**".toList ++ rest) := ht.trans (by simp)
    obtain ⟨z, rfl, rfl⟩ := exists_behind (hfree '/' (by simp)) ht'
    exact hdeclared (declared_of_readsTo (a := u ++ opening ++ body) hwhole hstars hlead hw hreads.of_slash (by simp))

end Reading

/-! ## The comment that is found -/

/-- A comment with the declaration behind it is matched. -/
lemma exists_match_of_declares {name : String} {body w e : List Char} (hname : name.toList ≠ []) (hbody : IsBody body)
    (hw : IsSpace w) (he : ExportWords e) (ht : Declares name.toList t) (before : Option Char) (offset : ℕ) :
    ∃ found, matchAt? (attachedPattern name) before offset (opening ++ (body ++ (closing ++ (w ++ (e ++ t))))) =
      some found ∧ found.get 1 = body := by
  have hstar : IsStars ['*'] := ⟨by simp, by simp⟩
  have hreaches := exists_reaches_attached hname hbody hstar hw he ht
    (p := ⟨before, offset, opening ++ (body ++ (closing ++ (w ++ (e ++ t)))), []⟩) rfl
  obtain ⟨found, hfound⟩ := Option.isSome_iff_exists.1 (isSome_matchAt?_iff.2 hreaches)
  obtain ⟨q, hq, rfl⟩ := exists_reaches_of_matchAt? hfound
  obtain ⟨body', ⟨stars, lead, keyword, w', v, hbody', hstars, -, -, -, hsame⟩, hget⟩ :=
    exists_attached_of_reaches hname rfl hq
  have hbodies : body = body' := body_unique hbody hbody' hstar hstars (List.append_cancel_left hsame)
  exact ⟨_, hfound, (hget _).trans hbodies.symm⟩

/-- The comment of a declaration is the one right before it, and a name that is declared behind no comment has none. -/
theorem attached?_of_declares {name : String} (hname : IsName name.toList) :
    (∀ before body w e t, ¬ DeclaredBehindComment name.toList before → ReadsWhole name.toList before → Closed before →
      IsBody body → IsSpace w → ExportWords e → Declares name.toList t →
      attached? (before ++ (opening ++ (body ++ (closing ++ (w ++ (e ++ t)))))) name = some (parse body)) ∧
    ∀ text, ¬ DeclaredBehindComment name.toList text → ReadsWhole name.toList text → attached? text name = none := by
  constructor
  · intro before body w e t hdeclared hwhole hclosed hbody hw he ht
    have hquiet : Quiet (attachedPattern name) before (opening ++ (body ++ (closing ++ (w ++ (e ++ t))))) := by
      rintro u v last offset rfl hne
      by_contra hmatch
      obtain ⟨found, hfound⟩ := Option.ne_none_iff_exists'.1 hmatch
      obtain ⟨q, hq, -⟩ := exists_reaches_of_matchAt? hfound
      obtain ⟨body', hattached, -⟩ := exists_attached_of_reaches hname.1 rfl hq
      exact not_attached_before hname hdeclared hwhole hclosed hne hattached
    obtain ⟨found, hfound, hget⟩ := exists_match_of_declares hname.1 hbody hw he ht
      (before.getLast?.or none) (0 + before.length)
    rw [attached?, find?, findFrom?_of_quiet hquiet, findFrom?_of_match hfound, Option.map_some, hget]
  · intro text hdeclared hwhole
    rw [attached?, Option.map_eq_none_iff, ← Option.not_isSome_iff_eq_none]
    intro hfound
    obtain ⟨u, v, q, rfl, hq⟩ := isMatch_iff.1 hfound
    obtain ⟨body, hattached, -⟩ := exists_attached_of_reaches hname.1 rfl hq
    exact hdeclared (declared_of_attached hwhole hattached)

theorem attached?_of_tag :
    attached? "/** Card. */\nlet Card;\n/** Good. */\nexport function Tag() \x7b\x7d".toList "Tag" =
        some (parse " Good. ".toList) ∧
      attached? "/** Card. */\nlet Card;\n".toList "Tag" = none := by
  have hinfix : ¬ "Tag".toList <:+: "/** Card. */\nlet Card;\n".toList := by decide
  obtain ⟨hdeclared, hwhole⟩ := not_declared_of_not_infix hinfix
  have hblank : isBlank ' ' = true ∧ isBlank '\n' = true := by decide
  have hname : IsName "Tag".toList := ⟨by simp, by simp [isIdentifierPart, isWord]⟩
  have hgap : IsGap [' '] := ⟨by simp [IsSpace, hblank], by simp⟩
  have hexport : ExportWords "export ".toList := ⟨_, [], .inr ⟨_, hgap, rfl⟩, .inl rfl, rfl⟩
  have htag : Declares "Tag".toList ([] ++ ("function".toList ++ ([' '] ++ ("Tag".toList ++ "() \x7b\x7d".toList)))) :=
    .function (.inl rfl) hgap (by simp [isWord]) (by simp [NameEnds]; decide)
  have hbody : IsBody " Good. ".toList := ⟨by decide, by decide⟩
  have hsource : "/** Card. */\nlet Card;\n/** Good. */\nexport function Tag() \x7b\x7d".toList =
      "/** Card. */\nlet Card;\n".toList ++ (opening ++ (" Good. ".toList ++ (closing ++ (['\n'] ++ ("export ".toList ++
        ([] ++ ("function".toList ++ ([' '] ++ ("Tag".toList ++ "() \x7b\x7d".toList))))))))) := by decide
  rw [hsource]
  exact ⟨(attached?_of_declares hname).1 _ _ _ _ _ hdeclared hwhole (by decide) hbody
    (by simp [IsSpace, hblank]) hexport htag, (attached?_of_declares hname).2 _ hdeclared hwhole⟩

/-- An empty comment is read as an opening, and everything up to the next end as its body. -/
theorem attached?_behind_empty_comment :
    ¬ ∀ before : List Char, ¬ DeclaredBehindComment "Tag".toList before → ReadsWhole "Tag".toList before →
      attached? (before ++ "/** Good. */ function Tag() \x7b\x7d".toList) "Tag" = some (parse " Good. ".toList) := by
  intro h
  have hinfix : ¬ "Tag".toList <:+: "/**/\n".toList := by decide
  obtain ⟨hdeclared, hwhole⟩ := not_declared_of_not_infix hinfix
  have hfound : attached? ("/**/\n".toList ++ "/** Good. */ function Tag() \x7b\x7d".toList) "Tag" =
      some ⟨"/ /** Good.", []⟩ := by cbv
  have hgood : parse " Good. ".toList = ⟨"Good.", []⟩ := by cbv
  have hsame := h _ hdeclared hwhole
  rw [hfound, hgood] at hsame
  exact absurd hsame (by decide)

end UiCatalog.DocBlock
