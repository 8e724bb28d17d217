import UiCatalog.Demo.Examples
import UiCatalog.Proofs.Elements

/-!
# Elements with code

The pattern of an element with code finds tags of the given name, with or without a prefix, and reads their first
`code` attribute that is a template literal.
-/
namespace UiCatalog.Demo

open Text Pattern Code VariantConfig

/-! ## Texts -/

/-- The inside of a template literal, where every backtick is escaped. -/
inductive TemplateBody : List Char → Prop
  | nil : TemplateBody []
  | plain {c rest} : c ≠ '\x60' → c ≠ '\\' → TemplateBody rest → TemplateBody (c :: rest)
  | escape {c rest} : c ≠ '\n' → TemplateBody rest → TemplateBody ('\\' :: c :: rest)

/-- A `code` attribute that is a template literal. -/
def CodeText (body t : List Char) : Prop :=
  ∃ w w', IsSpace w ∧ TemplateBody body ∧ IsSpace w' ∧
    t = "code=\x7b".toList ++ (w ++ '\x60' :: (body ++ '\x60' :: (w' ++ ['\x7d'])))

/-- What may stand before the name of an element: nothing, or a word that starts with a capital. -/
def IsTagPrefix (t : List Char) : Prop := t = [] ∨ ∃ c cs, c.isUpper = true ∧ (∀ d ∈ cs, isWord d = true) ∧ t = c :: cs

/-- The start of an element whose name ends in `name`. -/
def TagText (name t : List Char) : Prop := ∃ lead, IsTagPrefix lead ∧ t = '<' :: (lead ++ name)

/-- An element with code as it stands before `rest`, with the text `lead` between its tag and the attribute. -/
abbrev IsCodeElement (name : String) (tag lead t rest body : List Char) : Prop :=
  IsElement (TagText name.toList) CodeText tag lead t rest body

/-- An element whose name ends in `name` starts behind the first `place` characters; its code is the literal `body`. -/
def CodeElementAt (name : String) (source : List Char) (place : ℕ) (body : List Char) : Prop :=
  ∃ tag lead t rest, source.drop place = tag ++ (lead ++ (t ++ rest)) ∧ IsCodeElement name tag lead t rest body

/-! ## Patterns -/

def tagOpening (name : String) : Pattern :=
  (char '<' ++ (Pattern.optional (one Char.isUpper ++ many isWord) ++ text name)) ++ wordEdge

def templateUnit : Pattern := one (noneOf "\x60\\") <|> (char '\\' ++ one notLineFeed)

def codeFront : Pattern := text "code=\x7b" ++ (blanks ++ char '\x60')

def codeBack : Pattern := char '\x60' ++ (blanks ++ char '\x7d')

def codeAttribute : Pattern := codeFront ++ (group 1 (repeated templateUnit) ++ codeBack)

variable {name : String} {t u tag lead rest body : List Char} {p q : Point} {before : Option Char} {offset : ℕ}
  {found : Match}

lemma matchAt?_codeElement (name : String) :
    matchAt? (codeElement name) = matchAt? (elementWith (tagOpening name) codeAttribute) := rfl

/-! ## Tags -/

lemma isWord_of_isUpper {c : Char} (h : c.isUpper = true) : isWord c = true := by
  have hstart : isIdentifierStart c = true := by simp [isIdentifierStart, Char.isAlpha, h]
  have hdollar : c ≠ '$' := by
    rintro rfl
    exact absurd h (by decide)
  simpa [isIdentifierPart, hdollar] using isIdentifierPart_of_start hstart

/-- The name of an element, which is made of word characters. -/
def IsWordName (name : List Char) : Prop := name ≠ [] ∧ ∀ c ∈ name, isWord c = true

lemma isWordName_example : IsWordName "Example".toList := ⟨by decide, by decide⟩

lemma isWordName_codeBlock : IsWordName "CodeBlock".toList := ⟨by decide, by decide⟩

lemma TagText.word {name : List Char} (hn : IsWordName name) (h : TagText name t) :
    ∃ w, w ≠ [] ∧ (∀ c ∈ w, isWord c = true) ∧ t = '<' :: w := by
  obtain ⟨lead, hlead, rfl⟩ := h
  refine ⟨lead ++ name, by simp [hn.1], fun c hc => ?_, rfl⟩
  rcases List.mem_append.1 hc with hc | hc
  · obtain rfl | ⟨d, ds, hd, hds, rfl⟩ := hlead
    · exact absurd hc List.not_mem_nil
    · rcases List.mem_cons.1 hc with rfl | hc
      · exact isWord_of_isUpper hd
      · exact hds c hc
  · exact hn.2 c hc

/-- The tag is the whole word behind its bracket. -/
lemma tag_unique {name name' rest' : List Char} (hn : IsWordName name) (hn' : IsWordName name') (ht : TagText name t)
    (hu : TagText name' u) (hrest : WordEnds rest) (hrest' : WordEnds rest') (h : t ++ rest = u ++ rest') :
    t = u ∧ rest = rest' := by
  obtain ⟨w, -, hw, rfl⟩ := ht.word hn
  obtain ⟨w', -, hw', rfl⟩ := hu.word hn'
  have hsame : w ++ rest = w' ++ rest' := (List.cons.inj h).2
  have hword : w = w' := by
    rw [← takeWhile_append_of_ends hw hrest, hsame, takeWhile_append_of_ends hw' hrest']
  subst hword
  exact ⟨rfl, List.append_cancel_left hsame⟩

lemma spells_tag : Spells (char '<' ++ (Pattern.optional (one Char.isUpper ++ many isWord) ++ text name)) t ↔
    TagText name.toList t := by
  simp only [spells_append, spells_char, spells_optional, spells_one, spells_text]
  constructor
  · rintro ⟨_, _, rfl, ⟨lead, _, ⟨_, cs, ⟨c, hc, rfl⟩, hcs, rfl⟩ | rfl, rfl, rfl⟩, rfl⟩
    · exact ⟨c :: cs, .inr ⟨c, cs, hc, hcs, rfl⟩, rfl⟩
    · exact ⟨[], .inl rfl, rfl⟩
  · rintro ⟨_, rfl | ⟨c, cs, hc, hcs, rfl⟩, rfl⟩
    · exact ⟨_, _, rfl, ⟨_, _, .inr rfl, rfl, rfl⟩, rfl⟩
    · exact ⟨_, _, rfl, ⟨_, _, .inl ⟨_, cs, ⟨c, hc, rfl⟩, hcs, rfl⟩, rfl, rfl⟩, rfl⟩

lemma reaches_tagOpening_iff (hn : IsWordName name.toList) : Reaches (tagOpening name) p q ↔
    ∃ t rest, TagText name.toList t ∧ p.rest = t ++ rest ∧ WordEnds rest ∧ q = p.over t rest := by
  have hplain : Plain (char '<' ++ (Pattern.optional (one Char.isUpper ++ many isWord) ++ text name)) := by
    refine ⟨trivial, ⟨⟨trivial, trivial⟩, trivial⟩, plain_text name⟩
  rw [tagOpening, reaches_append]
  simp only [reaches_iff_of_plain hplain, spells_tag]
  have hends {t rest : List Char} (ht : TagText name.toList t) :
      (p.over t rest).atWordEdge = true ↔ WordEnds rest := by
    obtain ⟨w, hne, hw, rfl⟩ := ht.word hn
    rw [atWordEdge_over (List.cons_ne_nil _ _)]
    refine edgeBetween_iff (fun c hc => ?_) (List.cons_ne_nil _ _)
    rw [List.getLast?_cons, List.getLast?_eq_some_getLast hne] at hc
    exact Option.some.inj hc ▸ hw _ (List.getLast_mem hne)
  constructor
  · rintro ⟨_, ⟨t, rest, ht, hp, rfl⟩, hedge, rfl⟩
    exact ⟨t, rest, ht, hp, (hends ht).1 hedge, rfl⟩
  · rintro ⟨t, rest, ht, hp, hrest, rfl⟩
    exact ⟨_, ⟨t, rest, ht, hp, rfl⟩, (hends ht).2 hrest, rfl⟩

lemma opens_tagOpening (hn : IsWordName name.toList) : Opens (tagOpening name) (TagText name.toList) where
  oneWay p q q' hq hq' := by
    obtain ⟨t, rest, ht, hp, hrest, rfl⟩ := (reaches_tagOpening_iff hn).1 hq
    obtain ⟨t', rest', ht', hp', hrest', rfl⟩ := (reaches_tagOpening_iff hn).1 hq'
    obtain ⟨rfl, rfl⟩ := tag_unique hn hn ht ht' hrest hrest' (hp.symm.trans hp')
    rfl
  nonempty := by
    rintro _ ⟨_, -, rfl⟩
    exact List.cons_ne_nil _ _
  reaches_iff _ _ := reaches_tagOpening_iff hn

/-! ## Code attributes -/

lemma oneWay_templateUnit : OneWay templateUnit := by
  have hplain : StartsIn (noneOf "\x60\\") (one (noneOf "\x60\\")) := startsIn_one
  have hescape : StartsIn (· == '\\') (char '\\' ++ one notLineFeed) := startsIn_one.append _
  refine oneWay_one.orElse (oneWay_one.append oneWay_one) hplain hescape fun c hc => ?_
  rw [noneOf_iff] at hc
  simp at hc
  simp [hc]

/-- No unit of a template literal starts with a backtick. -/
lemma startsIn_templateUnit : StartsIn (fun c => !(c == '\x60')) templateUnit := by
  have hplain : StartsIn (noneOf "\x60\\") (one (noneOf "\x60\\")) := startsIn_one
  have hescape : StartsIn (· == '\\') (char '\\' ++ one notLineFeed) := startsIn_one.append _
  refine (hplain.mono fun c hc => ?_).orElse (hescape.mono fun c hc => ?_)
  · rw [noneOf_iff] at hc
    simp at hc
    simp [hc]
  · rw [eq_of_beq hc]
    decide

lemma oneWay_codeAttribute : OneWay codeAttribute := by
  have hbacktick : StartsIn (fun c => !isBlank c) (char '\x60') :=
    startsIn_one.mono fun c hc => by rw [eq_of_beq hc]; decide
  have hbrace : StartsIn (fun c => !isBlank c) (char '\x7d') :=
    startsIn_one.mono fun c hc => by rw [eq_of_beq hc]; decide
  have hfront : OneWay codeFront := (oneWay_text _).append (endsBefore_many.append oneWay_one hbacktick)
  have hback : OneWay codeBack := oneWay_one.append (endsBefore_many.append oneWay_one hbrace)
  exact hfront.append
    ((endsBefore_repeated oneWay_templateUnit startsIn_templateUnit).group.append hback (startsIn_one.append _))

lemma spells_templateUnit {u : List Char} :
    Spells templateUnit u ↔ (∃ c, c ≠ '\x60' ∧ c ≠ '\\' ∧ u = [c]) ∨ ∃ c, c ≠ '\n' ∧ u = ['\\', c] := by
  simp only [templateUnit, spells_orElse, spells_one, noneOf_iff, spells_append, spells_char, notLineFeed, bne_iff_ne]
  refine or_congr ?_ ?_
  · simp [and_assoc]
  · constructor
    · rintro ⟨_, _, rfl, ⟨c, hc, rfl⟩, rfl⟩
      exact ⟨c, hc, rfl⟩
    · rintro ⟨c, hc, rfl⟩
      exact ⟨_, _, rfl, ⟨c, hc, rfl⟩, rfl⟩

lemma spells_template : Spells (repeated templateUnit) body ↔ TemplateBody body := by
  constructor
  · rintro ⟨units, hunits, rfl⟩
    induction units with
    | nil => exact .nil
    | cons u units ih =>
      obtain ⟨hu, hothers⟩ := List.forall_mem_cons.1 hunits
      have hrest := ih hothers
      rw [List.flatten_cons]
      obtain ⟨c, hc, hback, rfl⟩ | ⟨c, hc, rfl⟩ := spells_templateUnit.1 hu
      · exact .plain hc hback hrest
      · exact .escape hc hrest
  · intro h
    have hcons {u body : List Char} (hu : Spells templateUnit u) (h : Spells (repeated templateUnit) body) :
        Spells (repeated templateUnit) (u ++ body) := by
      obtain ⟨units, hunits, rfl⟩ := h
      exact ⟨u :: units, List.forall_mem_cons.2 ⟨hu, hunits⟩, rfl⟩
    induction h with
    | nil => exact ⟨[], by simp, rfl⟩
    | plain hc hback _ ih => exact hcons (spells_templateUnit.2 (.inl ⟨_, hc, hback, rfl⟩)) ih
    | escape hc _ ih => exact hcons (spells_templateUnit.2 (.inr ⟨_, hc, rfl⟩)) ih

lemma plain_template : Plain (repeated templateUnit) := ⟨trivial, trivial, trivial⟩

/-- The body of the code attribute that has been read. -/
def bodyOf (groups : List (ℕ × Capture)) : Option (List Char) := (groups.lookup 1).map Capture.chars

lemma enclosing_code : Enclosing codeFront (repeated templateUnit) codeBack = CodeText := by
  funext body t
  simp only [Enclosing, CodeText, codeFront, codeBack, spells_append, spells_text, spells_blanks, spells_char,
    spells_template, eq_iff_iff]
  constructor
  · rintro ⟨_, _, ⟨_, _, rfl, ⟨w, _, hw, rfl, rfl⟩, rfl⟩, hbody, ⟨_, _, rfl, ⟨w', _, hw', rfl, rfl⟩, rfl⟩, rfl⟩
    exact ⟨w, w', hw, hbody, hw', by simp⟩
  · rintro ⟨w, w', hw, hbody, hw', rfl⟩
    exact ⟨_, _, ⟨_, _, rfl, ⟨w, _, hw, rfl, rfl⟩, rfl⟩, hbody, ⟨_, _, rfl, ⟨w', _, hw', rfl, rfl⟩, rfl⟩, by simp⟩

lemma holds_codeAttribute : Holds codeAttribute CodeText bodyOf := by
  rw [← enclosing_code]
  have hplain : Plain codeFront ∧ Plain codeBack := by simp [codeFront, codeBack]
  exact holds_enclosing oneWay_codeAttribute hplain.1 plain_template hplain.2 fun _ => rfl

/-! ## Elements that are found -/

/-- A match of the pattern is an element with code, and group 1 is its body. -/
theorem isCodeElement_of_matchAt? {s : List Char} (hn : IsWordName name.toList)
    (h : matchAt? (codeElement name) before offset s = some found) :
    ∃ tag lead t rest, s = tag ++ (lead ++ (t ++ rest)) ∧ IsCodeElement name tag lead t rest (found.get 1) ∧
      found.start = offset ∧ found.stop = offset + (tag ++ (lead ++ t)).length := by
  rw [matchAt?_codeElement] at h
  obtain ⟨tag, lead, t, rest, body, hs, helement, hstart, hstop, hbody⟩ :=
    isElement_of_matchAt? (opens_tagOpening hn) holds_codeAttribute h
  have hget : found.get 1 = body := by
    rw [Match.get, Match.get?, Match.group?]
    exact congrArg (·.getD []) hbody
  exact ⟨tag, lead, t, rest, hs, hget ▸ helement, hstart, hstop⟩

lemma codeElementAt_of_mem_findAll {source : List Char} (hn : IsWordName name.toList)
    (h : found ∈ (codeElement name).findAll source) :
    CodeElementAt name source found.start (found.get 1) ∧ found.start < found.stop := by
  obtain ⟨u, v, rfl, hmatch⟩ := exists_matchAt?_of_mem_findAll h
  obtain ⟨tag, lead, t, rest, rfl, helement, hstart, hstop⟩ := isCodeElement_of_matchAt? hn hmatch
  have htag := List.length_pos_iff.2 ((opens_tagOpening hn).nonempty tag helement.opens)
  refine ⟨⟨tag, lead, t, rest, by rw [hstart, List.drop_left], helement⟩, ?_⟩
  rw [hstart, hstop, List.length_append]
  omega

/-- An element with code is found where it stands, with its body as group 1. -/
theorem matchAt?_of_isCodeElement (hn : IsWordName name.toList) (h : IsCodeElement name tag lead t rest body)
    (before : Option Char) (offset : ℕ) :
    ∃ found, matchAt? (codeElement name) before offset (tag ++ (lead ++ (t ++ rest))) = some found ∧
      found.stop = offset + (tag ++ (lead ++ t)).length ∧ found.get 1 = body := by
  rw [matchAt?_codeElement]
  obtain ⟨found, hfound, hstop, hbody⟩ :=
    matchAt?_of_isElement (opens_tagOpening hn) holds_codeAttribute h before offset
  refine ⟨found, hfound, hstop, ?_⟩
  rw [Match.get, Match.get?, Match.group?]
  exact congrArg (·.getD []) hbody

end UiCatalog.Demo
