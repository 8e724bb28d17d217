import UiCatalog.Proofs.ObjectText

/-!
# Comments in object literals

A place in a text is given by what stands before it and what stands behind it. The scanner passes a comment by, but
the pieces of a list keep it, so what reads a piece may come upon it. Behind the colon of an entry, behind the braces
of its value and in a piece of its own a comment leaves the keys as they are.
-/
namespace UiCatalog.Code

open Text

/-- A comment that is closed, by its mark or by the end of its line. -/
inductive IsComment : List Char → Prop
  | block {body} : ¬ ['*', '/'] <:+: body → IsComment ('/' :: '*' :: (body ++ ['*', '/']))
  | line {body} : '\n' ∉ body → IsComment ('/' :: '/' :: (body ++ ['\n']))

/-- Text that ends outside literals and comments: what follows it is read as if it stood alone. -/
def Closed (t : List Char) : Prop := ∀ rest, mark (t ++ rest) = mark t ++ mark rest

/-- Nothing but line feeds is code. -/
def Inert (marked : List (Char × Bool)) : Prop := ∀ m ∈ marked, m.2 = true → m.1 = '\n'

/-! ## Places -/

/-- A place in one piece of a list. -/
def InList (kind : List Char → List Char → Prop) (x y : List Char) : Prop :=
  ∃ lead p q rest, (∀ t ∈ lead ++ (p ++ q) :: rest, Piece (· ≠ ',') t) ∧ kind p q ∧
    x = lead.flatMap (· ++ [',']) ++ p ∧ y = q ++ rest.flatMap ([','] ++ ·)

/-- The key that stands before the colon of an entry. -/
def entryKey? (k : List Char) : Option (List Char) :=
  let key := (unquote? (trim k)).getD (trim k)
  if isSpread (trimStart k) || key.isEmpty then none else some key

/-- A place behind the colon of an entry, of a kind that may depend on the key. -/
def InValue (kind : List Char → List Char → List Char → Prop) (x y : List Char) : Prop :=
  ∃ k v, Piece (· ≠ ':') k ∧ (∀ key, entryKey? k = some key → kind key v y) ∧ x = k ++ ':' :: v

/-- A place between the braces of an object literal. -/
def InObject (kind : List Char → List Char → Prop) (x y : List Char) : Prop :=
  ∃ w b b' t, IsSpace w ∧ Piece (fun _ => True) (b ++ b') ∧ kind b b' ∧ x = w ++ '\x7b' :: b ∧ y = b' ++ '\x7d' :: t

/-- A place behind the braces of an object literal. -/
def BehindObject (x : List Char) : Prop :=
  ∃ w b t, IsSpace w ∧ Piece (fun _ => True) b ∧ x = w ++ '\x7b' :: (b ++ '\x7d' :: t)

/-- A place in a value that is no object literal. -/
def InOther (x : List Char) : Prop := ∃ w c t, IsSpace w ∧ isBlank c = false ∧ c ≠ '\x7b' ∧ x = w ++ c :: t

/-- A place behind the dots of a spread entry. -/
def BehindDots (x : List Char) : Prop := ∃ w t, IsSpace w ∧ x = w ++ '.' :: '.' :: '.' :: t

/-- A place in a piece with nothing else in it. -/
def Alone (x y : List Char) : Prop := IsSpace x ∧ IsSpace y

variable {α : Type} {kind : List Char → List Char → Prop} {free : Char → Prop} {marked ms : List (Char × Bool)}
  {r t u w x y k v : List Char}

/-! ## The labels of a comment -/

lemma mark_blockBody {body : List Char} (h : ¬ ['*', '/'] <:+: body) (rest : List Char) :
    Region.blockComment.mark (body ++ '*' :: '/' :: rest) =
      (body ++ ['*', '/']).map (fun c => (c, false)) ++ mark rest := by
  induction body with
  | nil => rfl
  | cons c body ih =>
    have hgoes : ¬ (c = '*' ∧ (body ++ '*' :: '/' :: rest).head? = some '/') := by
      rintro ⟨rfl, hnext⟩
      cases body with
      | nil => simp at hnext
      | cons d body =>
        obtain rfl : d = '/' := by simpa using hnext
        exact h ⟨[], body, rfl⟩
    rw [List.cons_append, Region.mark, Region.step, if_neg hgoes]
    exact congrArg _ (ih fun hin => h (List.infix_cons hin))

/-- Nothing but a line feed ends a comment of this kind. -/
lemma mark_lineBody {body : List Char} (h : '\n' ∉ body) (rest : List Char) :
    Region.lineComment.mark (body ++ rest) = body.map (fun c => (c, false)) ++ Region.lineComment.mark rest := by
  induction body with
  | nil => rfl
  | cons c body ih =>
    rw [List.mem_cons, not_or] at h
    rw [List.cons_append, Region.mark, Region.step, if_neg (Ne.symm h.1)]
    exact congrArg _ (ih h.2)

lemma inert_skipped (xs : List Char) : Inert (xs.map fun c => (c, false)) := by
  intro m hm hcode
  obtain ⟨c, -, rfl⟩ := List.mem_map.mp hm
  exact absurd hcode Bool.false_ne_true

lemma Inert.append (h : Inert marked) (hms : Inert ms) : Inert (marked ++ ms) := fun m hm =>
  (List.mem_append.mp hm).elim (h m) (hms m)

/-- A comment is passed by, but for the line feed at its end. -/
lemma mark_comment (h : IsComment r) : Closed r ∧ Inert (mark r) := by
  obtain ⟨ms, hms, hmark⟩ : ∃ ms, Inert ms ∧ ∀ rest, mark (r ++ rest) = ms ++ mark rest := by
    cases h with
    | @block body hbody =>
      refine ⟨_, inert_skipped ('/' :: '*' :: (body ++ ['*', '/'])), fun rest => ?_⟩
      have hsplit : '/' :: '*' :: (body ++ ['*', '/']) ++ rest = '/' :: '*' :: (body ++ '*' :: '/' :: rest) := by simp
      rw [hsplit]
      exact congrArg (fun ms => ('/', false) :: ('*', false) :: ms) (mark_blockBody hbody rest)
    | @line body hbody =>
      have hfeed : Inert [('\n', true)] := by simp [Inert]
      refine ⟨_, (inert_skipped ('/' :: '/' :: body)).append hfeed, fun rest => ?_⟩
      have hsplit : '/' :: '/' :: (body ++ ['\n']) ++ rest = '/' :: '/' :: (body ++ '\n' :: rest) := by simp
      rw [hsplit, List.append_assoc]
      exact congrArg (fun ms => ('/', false) :: ('/', false) :: ms) (mark_lineBody hbody ('\n' :: rest))
  have hself : mark r = ms := by
    have hnil := hmark []
    rwa [List.append_nil, show mark [] = [] from rfl, List.append_nil] at hnil
  rw [Closed, hself]
  exact ⟨hmark, hms⟩

/-! ## Comments in nested text -/

lemma Closed.append (ht : Closed t) (hu : Closed u) : Closed (t ++ u) := fun rest => by
  rw [List.append_assoc, ht, hu, ht, List.append_assoc]

lemma Closed.of_append (ht : Closed t) (h : Closed (t ++ u)) : Closed u := fun rest => by
  have hall := h rest
  rw [List.append_assoc, ht, ht, List.append_assoc] at hall
  exact List.append_cancel_left hall

lemma closed_cons_of_plain {c : Char} (hc : isPlain c = true) (h : Closed t) : Closed (c :: t) := fun rest => by
  rw [List.cons_append, mark_cons_of_plain hc, mark_cons_of_plain hc, h, List.cons_append]

lemma closed_cons_of_bracket {c : Char} (hc : opensBracket c = true ∨ closesBracket c = true) (h : Closed t) :
    Closed (c :: t) := fun rest => by
  rw [List.cons_append, mark_cons_of_bracket hc, mark_cons_of_bracket hc, h, List.cons_append]

lemma closed_of_isSpace (hw : IsSpace w) : Closed w := by
  have hpiece : Piece (fun _ => True) w := piece_of_isSpace hw fun _ _ => trivial
  exact hpiece.closed

lemma level_of_inert (h : Inert marked) (hfree : free '\n') : Level free marked := by
  induction marked with
  | nil => exact .nil
  | cons m marked ih =>
    obtain ⟨c, isCode⟩ := m
    have hrest : Level free marked := ih fun m hm => h m (.tail _ hm)
    cases isCode with
    | false => exact .skip hrest
    | true =>
      obtain rfl : c = '\n' := h _ (.head _) rfl
      exact .plain (by decide) hfree hrest

/-- In a group the text goes before the closing bracket or behind it. -/
lemma Level.insert_group {o c : Char} {body front back : List (Char × Bool)} (ho : opensBracket o = true)
    (hc : closesBracket c = true) (hbody : Level (fun _ => True) body) (hrest : Level free marked)
    (hsplit : body ++ (c, true) :: marked = front ++ back) (hms : Inert ms)
    (hinside : ∀ back', body = front ++ back' → Level (fun _ => True) (front ++ (ms ++ back')))
    (hbehind : ∀ front', marked = front' ++ back → Level free (front' ++ (ms ++ back))) :
    Level free ((o, true) :: front ++ (ms ++ back)) := by
  rcases List.append_eq_append_iff.mp hsplit with ⟨z, rfl, hz⟩ | ⟨z, rfl, rfl⟩
  · cases z with
    | nil =>
      obtain rfl : _ = back := hz
      have hend : Level (fun _ => True) (body ++ ms) := hbody.append (level_of_inert hms trivial)
      rw [List.append_nil, List.cons_append, ← List.append_assoc]
      exact .group ho hc hend hrest
    | cons m z =>
      obtain ⟨rfl, htail⟩ := List.cons.inj hz
      rw [List.cons_append, List.append_assoc, List.cons_append]
      exact .group ho hc hbody (hbehind z htail)
  · have hassoc : (o, true) :: front ++ (ms ++ (z ++ (c, true) :: marked)) =
        (o, true) :: ((front ++ (ms ++ z)) ++ (c, true) :: marked) := by simp
    rw [hassoc]
    exact .group ho hc (hinside z rfl) hrest

/-- Text that opens and closes nothing may stand anywhere in nested text. -/
lemma Level.insert {front back : List (Char × Bool)} (h : Level free marked) (hsplit : marked = front ++ back)
    (hms : Inert ms) (hfree : free '\n') : Level free (front ++ (ms ++ back)) := by
  have hstart {free : Char → Prop} {back : List (Char × Bool)} (hfree : free '\n') (hback : Level free back) :
      Level free (ms ++ back) := (level_of_inert hms hfree).append hback
  -- Either the front is empty, or it begins with the label that the constructor puts first.
  induction h generalizing front back with
  | nil =>
    obtain ⟨rfl, rfl⟩ := List.append_eq_nil_iff.mp hsplit.symm
    exact hstart hfree .nil
  | skip hrest ih =>
    rcases List.cons_eq_append_iff.mp hsplit with ⟨rfl, rfl⟩ | ⟨front, rfl, htail⟩
    · exact hstart hfree (.skip hrest)
    · exact .skip (ih htail hfree)
  | plain hc hf hrest ih =>
    rcases List.cons_eq_append_iff.mp hsplit with ⟨rfl, rfl⟩ | ⟨front, rfl, htail⟩
    · exact hstart hfree (.plain hc hf hrest)
    · exact .plain hc hf (ih htail hfree)
  | group ho hc hbody hrest ihbody ih =>
    rcases List.cons_eq_append_iff.mp hsplit with ⟨rfl, rfl⟩ | ⟨front, rfl, htail⟩
    · exact hstart hfree (.group ho hc hbody hrest)
    · exact insert_group ho hc hbody hrest htail hms (fun _ hin => ihbody hin trivial) fun _ hin => ih hin hfree

/-- Nested text stays nested text with a comment in it. -/
lemma piece_insert (h : Piece free (x ++ y)) (hx : Closed x) (hr : IsComment r) (hfree : free '\n') :
    Piece free (x ++ (r ++ y)) := by
  obtain ⟨hclosed, hinert⟩ := mark_comment hr
  have hy : Closed y := hx.of_append h.closed
  have hmark : mark (x ++ (r ++ y)) = mark x ++ (mark r ++ mark y) := by rw [hx, hclosed]
  refine ⟨hx.append (hclosed.append hy), ?_⟩
  rw [hmark]
  exact h.level.insert (hx y) hinert hfree

/-! ## Comments in a list -/

lemma filterMap_splitTopLevel {read : List Char → Option α} (hread : ∀ t, IsSpace t → read t = none)
    {pieces : List (List Char)} (h : ∀ t ∈ pieces, Piece (· ≠ ',') t) :
    (splitTopLevel ',' (join [','] pieces)).filterMap read = pieces.filterMap read := by
  by_cases hnil : pieces = []
  · subst hnil
    rfl
  · rw [splitTopLevel_join (by decide) (by decide) hnil h, List.filterMap_filter]
    refine List.filterMap_congr fun t _ => ?_
    split_ifs with hblank
    · rfl
    · rw [Bool.not_eq_true, Bool.not_eq_false', isBlankText_iff] at hblank
      exact (hread t hblank).symm

lemma closed_flatMap {lead : List (List Char)} (h : ∀ t ∈ lead, Piece (· ≠ ',') t) :
    Closed (lead.flatMap (· ++ [','])) := by
  have hcomma : isPlain ',' = true := by decide
  induction lead with
  | nil => exact fun _ => rfl
  | cons t lead ih =>
    have ht : Closed t := (h t (.head _)).closed
    rw [List.flatMap_cons, List.append_assoc]
    exact ht.append (closed_cons_of_plain hcomma (ih fun u hu => h u (.tail _ hu)))

/-- With a comment in one of its pieces a list stays a list. -/
lemma inList_insert (h : InList kind x y) (hx : Closed x) (hr : IsComment r) :
    ∃ lead p q rest, kind p q ∧ Closed p ∧
      (∀ piece ∈ [p ++ q, p ++ (r ++ q)], ∀ t ∈ lead ++ piece :: rest, Piece (· ≠ ',') t) ∧
      x ++ y = join [','] (lead ++ (p ++ q) :: rest) ∧
      x ++ (r ++ y) = join [','] (lead ++ (p ++ (r ++ q)) :: rest) := by
  obtain ⟨lead, p, q, rest, hpieces, hpq, rfl, rfl⟩ := h
  have hp : Closed p := (closed_flatMap fun t ht => hpieces t (List.mem_append_left _ ht)).of_append hx
  have hinsert : Piece (· ≠ ',') (p ++ (r ++ q)) := piece_insert (hpieces _ (by simp)) hp hr (by decide)
  refine ⟨lead, p, q, rest, hpq, hp, ?_, ?_, ?_⟩
  · simp only [List.forall_mem_append, List.forall_mem_cons] at hpieces ⊢
    obtain ⟨hlead, hpiece, hrest⟩ := hpieces
    exact ⟨⟨hlead, hpiece, hrest⟩, ⟨hlead, hinsert, hrest⟩, by simp⟩
  · rw [join_append_cons]
    simp
  · rw [join_append_cons]
    simp

/-- A list reads the same with a comment in one of its pieces if that piece does. -/
lemma filterMap_inList {read : List Char → Option α} (h : InList kind x y) (hx : Closed x) (hr : IsComment r)
    (hread : ∀ t, IsSpace t → read t = none)
    (hkind : ∀ p q, Closed p → kind p q → read (p ++ (r ++ q)) = read (p ++ q)) :
    (splitTopLevel ',' (x ++ (r ++ y))).filterMap read = (splitTopLevel ',' (x ++ y)).filterMap read := by
  obtain ⟨lead, p, q, rest, hpq, hp, hpieces, hplain, hcommented⟩ := inList_insert h hx hr
  rw [hplain, hcommented, filterMap_splitTopLevel hread (hpieces _ (.head _)),
    filterMap_splitTopLevel hread (hpieces _ (.tail _ (.head _)))]
  simp only [List.filterMap_append, List.filterMap_cons, hkind p q hp hpq]

lemma piece_inList (h : InList kind x y) (hx : Closed x) (hr : IsComment r) :
    Piece (fun _ => True) (x ++ y) ∧ Piece (fun _ => True) (x ++ (r ++ y)) := by
  obtain ⟨lead, p, q, rest, -, -, hpieces, hplain, hcommented⟩ := inList_insert h hx hr
  rw [hplain, hcommented]
  exact ⟨piece_join (hpieces _ (.head _)), piece_join (hpieces _ (.tail _ (.head _)))⟩

/-! ## Comments in an entry -/

lemma readEntry_of_isSpace (hw : IsSpace w) : readEntry w = none := by
  rw [readEntry, trim_of_isSpace hw]
  rfl

/-- Nested text without its first character, if that is no bracket. -/
lemma Level.tail {c : Char} (hc : isPlain c = true) (h : Level free ((c, true) :: marked)) : Level free marked := by
  cases h with
  | plain _ _ hrest => exact hrest
  | group ho _ _ _ =>
    have hdepth := depthStep_of_plain hc
    rw [depthStep_of_opens ho] at hdepth
    exact absurd hdepth (by decide)

lemma piece_of_space_append (hw : IsSpace w) (h : Piece free (w ++ t)) : Piece free t := by
  refine ⟨(closed_of_isSpace hw).of_append h.closed, ?_⟩
  have hlevel := h.level
  clear h
  induction w with
  | nil => exact hlevel
  | cons c w ih =>
    have hc : isPlain c = true := plain_of_blank (hw c (.head _))
    rw [List.cons_append, mark_cons_of_plain hc] at hlevel
    exact ih (fun d hd => hw d (.tail _ hd)) (hlevel.tail hc)

lemma isSpread_append_colon (k s : List Char) : isSpread (k ++ ':' :: s) = isSpread k := by
  rcases k with _ | ⟨a, _ | ⟨b, _ | ⟨c, k⟩⟩⟩ <;> simp [isSpread, List.isPrefixOf]

lemma readEntry_colon (hk : Piece (· ≠ ':') k) (s : List Char) :
    readEntry (k ++ ':' :: s) = (entryKey? k).map fun key => (key, trim s) := by
  obtain ⟨w, hw, hsplit⟩ := exists_space_of_trimStart k
  have hcolon : Piece (· ≠ ':') (trimStart k) := piece_of_space_append hw (hsplit ▸ hk)
  rw [readEntry, trim_append_cons (by decide), entryKey?]
  simp only [isSpread_append_colon, colonOffset?_key hcolon]
  rw [List.take_left, ← List.drop_drop, List.drop_left, List.drop_one, List.tail_cons, trim_trimEnd, trim_trimStart]
  cases isSpread (trimStart k) <;> cases ((unquote? (trim k)).getD (trim k)).isEmpty <;> rfl

/-- Behind its colon an entry reads the same with a comment if its value does. -/
lemma readEntry_inValue {valueKind : List Char → List Char → List Char → Prop} {g : List Char × List Char → Option α}
    (h : InValue valueKind x y) (hx : Closed x)
    (hg : ∀ key v, valueKind key v y → Closed v → g (key, trim (v ++ (r ++ y))) = g (key, trim (v ++ y))) :
    (readEntry (x ++ (r ++ y))).bind g = (readEntry (x ++ y)).bind g := by
  obtain ⟨k, v, hk, hkind, rfl⟩ := h
  have hcolon : Closed [':'] := closed_cons_of_plain (by decide) fun _ => rfl
  have hkey : Closed k := hk.closed
  have hv : Closed v := (hkey.append hcolon).of_append (by rwa [List.append_assoc])
  rw [List.append_assoc, List.append_assoc, List.cons_append, List.cons_append, readEntry_colon hk, readEntry_colon hk]
  cases hkey : entryKey? k with
  | none => rfl
  | some key => exact hg key v (hkind key hkey) hv

lemma isSpread_behindDots (h : BehindDots x) (s : List Char) : isSpread (trim (x ++ s)) = true := by
  obtain ⟨w, t, hw, rfl⟩ := h
  have hdots : w ++ '.' :: '.' :: '.' :: t ++ s = w ++ (['.', '.'] ++ '.' :: (t ++ s)) := by simp
  rw [hdots, trim_space_append hw, trim_append_cons (by decide)]
  rfl

lemma readEntry_behindDots (h : BehindDots x) (s : List Char) : readEntry (x ++ s) = none := by
  rw [readEntry, isSpread_behindDots h]
  rfl

lemma colonOffset?_slash (e : List Char) : ∃ n? : Option Nat, colonOffset? 0 (mark ('/' :: e)) = n?.map (· + 1) := by
  obtain ⟨isCode, ms, hmark⟩ : ∃ isCode ms, mark ('/' :: e) = ('/', isCode) :: ms := ⟨_, _, rfl⟩
  have hdepth : depthStep '/' = 0 := by decide
  refine ⟨colonOffset? 0 ms, ?_⟩
  rw [hmark, colonOffset?]
  cases isCode <;> simp [hdepth]

/-- The scanner finds no colon in a comment, and its first character is no quote. -/
lemma trim_comment (hr : IsComment r) : ∃ t, trim r = '/' :: t ∧ colonOffset? 0 (mark (trim r)) = none := by
  have hnone {t : List Char} (h : Level (· ≠ ':') (mark t)) : colonOffset? 0 (mark t) = none := by
    have hall := colonOffset?_append h []
    rwa [List.append_nil] at hall
  have hlevel : Level (· ≠ ':') (mark r) := level_of_inert (mark_comment hr).2 (by decide)
  cases hr with
  | @block body hbody =>
    have htrim : trim ('/' :: '*' :: (body ++ ['*', '/'])) = '/' :: '*' :: (body ++ ['*', '/']) :=
      trim_of_ends rfl (by decide) (List.append_assoc ('/' :: '*' :: body) ['*'] ['/']).symm (by decide)
    rw [htrim]
    exact ⟨_, rfl, hnone hlevel⟩
  | @line body hbody =>
    have hfeed : IsSpace ['\n'] := by decide
    obtain ⟨w, -, hsplit⟩ := exists_space_of_trimEnd body
    -- Without its line feed the comment is not closed any more, but there is still nothing in it but comment.
    have hkept : '\n' ∉ trimEnd body := fun hmem => hbody (by rw [hsplit]; exact List.mem_append_left _ hmem)
    have htrim : trim ('/' :: '/' :: (body ++ ['\n'])) = '/' :: '/' :: trimEnd body := by
      have hend : trimEnd (['/'] ++ '/' :: body) = ['/'] ++ '/' :: trimEnd body :=
        trimEnd_append_cons (by decide) _ body
      rw [← List.cons_append, ← List.cons_append, trim_append_space hfeed, trim, trimStart_cons (by decide)]
      exact hend
    have hmark : mark ('/' :: '/' :: trimEnd body) = ('/' :: '/' :: trimEnd body).map fun c => (c, false) := by
      have hbehind := mark_lineBody hkept []
      rw [List.append_nil, Region.mark, List.append_nil] at hbehind
      exact congrArg (fun ms => ('/', false) :: ('/', false) :: ms) hbehind
    rw [htrim]
    exact ⟨_, rfl, hnone (hmark ▸ level_of_skipped _)⟩

/-- A comment in a piece of its own reads as a key without a value. -/
lemma readEntry_alone (hr : IsComment r) (h : Alone x y) : ∃ t, readEntry (x ++ (r ++ y)) = some ('/' :: t, []) := by
  obtain ⟨hx, hy⟩ := h
  obtain ⟨t, htrim, hcolon⟩ := trim_comment hr
  have hentry : trim (x ++ (r ++ y)) = trim r := by rw [trim_space_append hx, trim_append_space hy]
  refine ⟨t, ?_⟩
  rw [htrim] at hcolon
  rw [readEntry, hentry, htrim]
  simp only [hcolon, unquote?_of_not_quote (c := '/') (by decide) (by decide)]
  rfl

end UiCatalog.Code
