import UiCatalog.Pattern
import UiCatalog.Proofs.BracketDepth
import UiCatalog.Proofs.Meaning
import UiCatalog.Proofs.SnippetOrder
import UiCatalog.Text.Alphanumeric

/-!
# Snippets read back

`ElementText.read?` reads the text of an element: its tag, its attributes one after the other, and what stands up to the
closing tag at the end. Of a value in braces it reads as far as the brace that closes it, of a value in quotes as far as
the next quote. A snippet reads back as what it was asked for, whatever its values and its children hold, as long as the
values in braces close their own brackets. JSON values always do.
-/
namespace UiCatalog

open Json Code

/-- What an attribute has behind its name. -/
inductive AttributeValue where
  | bare
  /-- An expression with its braces. -/
  | braced (text : List Char)
  /-- A string without its quotes. -/
  | quoted (text : List Char)
  deriving DecidableEq, Repr

/-- An element as it is read from its text. -/
structure ElementText where
  tag : List Char
  attributes : List (List Char × AttributeValue)
  /-- What stands between the tags; an element that closes itself has nothing there. -/
  children : Option (List Char)
  deriving DecidableEq, Repr

/-- A quote as it stands in a string. -/
def escapeQuote (c : Char) : List Char := if c = '"' then "&quot;".toList else [c]

namespace AttributeValue

/-- The value of an attribute that is asked for with a text. -/
def ofText (text : String) : AttributeValue :=
  if text = "true" then bare
  else if text = "false" then braced "\x7bfalse\x7d".toList
  else if text.toList.head? = some '\x7b' then braced text.toList
  else if text.toList.head? = some '(' then braced ('\x7b' :: (text.toList ++ ['\x7d']))
  else quoted (text.toList.flatMap escapeQuote)

/-- Reads what stands behind the name of an attribute. -/
def read? (s : List Char) : Option (AttributeValue × List Char) :=
  match s with
  | '=' :: s =>
    if s.head? = some '\x7b' then
      (closingIndex? s 0).map fun stop => (braced (s.take (stop + 1)), s.drop (stop + 1))
    else if s.head? = some '"' then
      let text := (s.drop 1).takeWhile (· != '"')
      match (s.drop 1).drop text.length with
      | [] => none
      | _ :: rest => some (quoted text, rest)
    else none
  | s => some (bare, s)

lemma length_read? {s rest : List Char} {value : AttributeValue} (h : read? s = some (value, rest)) :
    rest.length ≤ s.length := by
  unfold read? at h
  split at h
  · split_ifs at h
    · obtain ⟨stop, -, heq⟩ := Option.map_eq_some_iff.1 h
      cases heq
      simp only [List.length_drop, List.length_cons]
      omega
    · extract_lets text at h
      split at h
      · cases h
      · next hdrop =>
        cases h
        have hlen := congrArg List.length hdrop
        simp only [List.length_drop, List.length_cons] at hlen ⊢
        omega
  · cases h
    exact Nat.le_refl _

/-- A value as it stands behind the name. -/
def chars : AttributeValue → List Char
  | bare => []
  | braced text => '=' :: text
  | quoted text => '=' :: '"' :: (text ++ ['"'])

end AttributeValue

namespace ElementText

def isNameChar (c : Char) : Bool := Text.isAlphanumeric c || c == '-' || c == '_'

/-- Reads the name of an attribute and its value. -/
def readAttribute? (s : List Char) : Option ((List Char × AttributeValue) × List Char) :=
  let name := s.takeWhile isNameChar
  if name.isEmpty then none
  else (AttributeValue.read? (s.drop name.length)).map fun (value, rest) => ((name, value), rest)

lemma length_readAttribute? {s rest : List Char} {a : List Char × AttributeValue}
    (h : readAttribute? s = some (a, rest)) : rest.length < s.length := by
  unfold readAttribute? at h
  extract_lets name at h
  split_ifs at h with hname
  obtain ⟨⟨value, rest'⟩, hread, heq⟩ := Option.map_eq_some_iff.1 h
  cases heq
  have hle := AttributeValue.length_read? hread
  have hpos : 0 < name.length := List.length_pos_iff.2 (by simpa using hname)
  have hprefix : name.length ≤ s.length := (List.takeWhile_prefix isNameChar).length_le
  rw [List.length_drop] at hle
  omega

/-- Reads the attributes of an opening tag, up to its end. -/
def readAttributes? (s : List Char) : Option (List (List Char × AttributeValue) × List Char) :=
  match s with
  | ' ' :: s =>
    if s.head? = some '/' then some ([], ' ' :: s)
    else
      match _ : readAttribute? s with
      | none => none
      | some (a, rest) => (readAttributes? rest).map fun (attributes, rest) => (a :: attributes, rest)
  | s => some ([], s)
termination_by s.length
decreasing_by
  have hlen := length_readAttribute? ‹_›
  simp only [List.length_cons]
  omega

/-- Reads an element that is all of a text. -/
def read? (s : List Char) : Option ElementText := do
  let s ← Text.stripStart? ['<'] s
  let tag := s.takeWhile isIdentifierPart
  let (attributes, rest) ← readAttributes? (s.drop tag.length)
  let closing := '<' :: '/' :: (tag ++ ['>'])
  match rest with
  | [' ', '/', '>'] => some ⟨tag, attributes, none⟩
  | '>' :: rest =>
    if closing.isSuffixOf rest then some ⟨tag, attributes, some (rest.take (rest.length - closing.length))⟩ else none
  | _ => none

end ElementText

/-! ## JSON texts as code -/

namespace Json

/-- What the grammar has between two quotes is the inside of a string literal of code. -/
lemma literalBody_of_piecesText {ps : List Piece} {t : List Char} (h : PiecesText ps t) : LiteralBody '"' t := by
  induction h with
  | nil => exact .nil
  | plain hquote hback _ _ ih => exact .plain hquote hback ih
  | short _ _ ih => exact .escape ih
  | unit hn _ ih =>
    have hplain {c : Char} (hc : c.isAlphanum = true) {t : List Char} (ht : LiteralBody '"' t) :
        LiteralBody '"' (c :: t) := by
      refine .plain ?_ ?_ ht
      all_goals
        rintro rfl
        exact absurd hc (by decide)
    have hdigits := isAlphanum_of_hexUnit? hn
    simp only [List.forall_mem_cons] at hdigits
    obtain ⟨h₁, h₂, h₃, h₄, -⟩ := hdigits
    exact .escape (hplain h₁ (hplain h₂ (hplain h₃ (hplain h₄ ih))))

lemma isLiteral_quote (s : String) : IsLiteral (quote s) :=
  ⟨'"', s.toList.flatMap escapeChar, by decide, literalBody_of_piecesText (piecesText_pieces s), rfl⟩

lemma isPlain_of_isNumeralChar {c : Char} (h : isNumeralChar c = true) : isPlain c = true := by
  by_contra hnot
  have hall : ∀ c ∈ "'\"\x60/\x7b\x7d()[]".toList, isNumeralChar c = false := by decide
  rw [hall c (mem_of_not_plain (by simpa using hnot))] at h
  cases h

lemma piece_plain {t : List Char} (h : ∀ c ∈ t, isPlain c = true) : Code.Piece (fun _ => True) t :=
  piece_of_plain fun c hc => ⟨h c hc, trivial⟩

/-- The text of a value closes all its literals and brackets, as all its pieces do. -/
lemma holdsOfPieces_piece : HoldsOfPieces (Code.Piece fun _ => True) where
  nil := piece_nil
  append hs ht := hs.append ht
  word := by
    have hplain : ∀ t ∈ ["null", "true", "false", ",", ":"], ∀ c ∈ t.toList, isPlain c = true := by decide
    exact fun t ht => piece_plain (hplain t ht)
  number _ := piece_plain fun _ hc => isPlain_of_isNumeralChar (isNumeralChar_of_mem_chars hc)
  quote s := piece_literal (isLiteral_quote s)
  brackets ht := piece_group rfl rfl ht
  braces ht := piece_group rfl rfl ht

end Json

/-! ## Values -/

/-- One group in brackets: its last character closes its first one. -/
def IsGroup (t : List Char) : Prop := closingIndex? t 0 = some (t.length - 1)

/-- What is taken for an expression is a group, or becomes one in braces. -/
def ClosesBraces (text : String) : Prop :=
  (text.toList.head? = some '\x7b' → IsGroup text.toList) ∧
  (text.toList.head? = some '(' → IsGroup ('\x7b' :: (text.toList ++ ['\x7d'])))

instance (t : List Char) : Decidable (IsGroup t) := inferInstanceAs (Decidable (_ = _))

instance (text : String) : Decidable (ClosesBraces text) := inferInstanceAs (Decidable (_ ∧ _))

lemma isGroup_of_piece {o c : Char} {t : List Char} (ho : opensBracket o = true) (hc : closesBracket c = true)
    (h : Code.Piece (fun _ => True) t) : IsGroup (o :: (t ++ [c])) := by
  have hfound : closingIndex? (o :: (t ++ [c])) 0 = some (0 + (t.length + 1)) :=
    closingIndex?_segment ho hc h.segment rfl
  rw [IsGroup, hfound]
  simp

/-- Only the text of an object starts with a brace, and none starts with a parenthesis. -/
lemma head?_compactChars {v : Json} {c : Char} (hc : c ∈ ['\x7b', '(']) (h : v.compactChars.head? = some c) :
    c = '\x7b' ∧ ∃ members, v = .object members := by
  have hnot {d : Char} (hd : v.compactChars.head? = some d) (hnot : d ∉ ['\x7b', '(']) : False := by
    obtain rfl := Option.some.inj (h.symm.trans hd)
    exact hnot hc
  cases v with
  | null => exact (hnot rfl (by decide)).elim
  | bool b => cases b <;> exact (hnot rfl (by decide)).elim
  | number n =>
    have hmem := isNumeralChar_of_mem_chars (List.mem_of_head? h)
    have hall : ∀ c ∈ ['\x7b', '('], isNumeralChar c = false := by decide
    rw [hall c hc] at hmem
    cases hmem
  | string s => exact (hnot rfl (by decide)).elim
  | array items => exact (hnot rfl (by decide)).elim
  | object members => exact ⟨(Option.some.inj h).symm, members, rfl⟩

/-- The text of a JSON value always closes its brackets. -/
lemma closesBraces_compact (v : Json) : ClosesBraces v.compact := by
  rw [ClosesBraces, compact, String.toList_ofList]
  constructor
  · intro h
    obtain ⟨-, members, rfl⟩ := head?_compactChars (.head _) h
    have hinside := holdsOfPieces_piece.members fun m (_ : m ∈ members) => holdsOfPieces_piece.compactChars m.2
    exact isGroup_of_piece rfl rfl hinside
  · intro h
    exact absurd (head?_compactChars (.tail _ (.head _)) h).1 (by decide)

namespace AttributeValue

variable {text : String} {value : AttributeValue} {t rest : List Char}

/-- A value that ends where its text does. -/
def Ends : AttributeValue → Prop
  | bare => True
  | braced t => t.head? = some '\x7b' ∧ IsGroup t
  | quoted t => '"' ∉ t

lemma quote_not_mem_escapeQuote (t : List Char) : '"' ∉ t.flatMap escapeQuote := by
  rw [List.mem_flatMap]
  rintro ⟨c, -, hc⟩
  rw [escapeQuote] at hc
  split_ifs at hc with hquote
  · exact absurd hc (by decide)
  · exact hquote (List.mem_singleton.1 hc).symm

lemma ends_ofText (h : ClosesBraces text) : (ofText text).Ends := by
  rw [ofText]
  split_ifs with _ _ hbrace hround
  · trivial
  · exact ⟨rfl, isGroup_of_piece (t := "false".toList) rfl rfl (piece_plain (by decide))⟩
  · exact ⟨hbrace, h.1 hbrace⟩
  · exact ⟨rfl, h.2 hround⟩
  · exact quote_not_mem_escapeQuote _

lemma replace_quote (t : List Char) : Text.replace ['"'] "&quot;".toList t = t.flatMap escapeQuote := by
  induction t with
  | nil => rfl
  | cons c t ih =>
    rw [List.flatMap_cons, escapeQuote, ← ih]
    split_ifs with hquote
    · subst hquote
      exact Text.replace_self_append (by decide) t
    · exact Text.replace_other_head (by simpa using Ne.symm hquote) (by decide) t

/-- An attribute is written as its name and its value, behind a blank. -/
lemma toList_attributeText (name text : String) :
    (SnippetRequest.attributeText name text).toList = ' ' :: (name.toList ++ (ofText text).chars) := by
  rw [SnippetRequest.attributeText, ofText]
  split_ifs <;> simp [chars, ← replace_quote]

/-- A value is read as it is written, up to its end. -/
lemma read?_chars (h : value.Ends) (hrest : rest.head? ≠ some '=') :
    read? (value.chars ++ rest) = some (value, rest) := by
  cases value with
  | bare =>
    rw [chars, List.nil_append, read?]
    rintro s rfl
    exact hrest rfl
  | braced t =>
    obtain ⟨hhead, hgroup⟩ := h
    obtain ⟨cs, rfl⟩ := List.head?_eq_some_iff.1 hhead
    have hhead : ('\x7b' :: cs ++ rest).head? = some '\x7b' := rfl
    have hstop : closingIndex? ('\x7b' :: cs ++ rest) 0 = some cs.length := closingIndex?_append hgroup rest
    have htake : ('\x7b' :: cs ++ rest).take (cs.length + 1) = '\x7b' :: cs := List.take_left' rfl
    have hdrop : ('\x7b' :: cs ++ rest).drop (cs.length + 1) = rest := List.drop_left' rfl
    rw [chars, List.cons_append, read?]
    dsimp only
    rw [if_pos hhead, hstop, Option.map_some, htake, hdrop]
  | quoted t =>
    have htext : (t ++ '"' :: rest).takeWhile (· != '"') = t := Text.takeWhile_append_cons h rest
    have hdrop : (t ++ '"' :: rest).drop t.length = '"' :: rest := List.drop_left' rfl
    rw [chars, List.cons_append, List.cons_append, List.append_assoc, read?]
    simp [htext, hdrop]

end AttributeValue

namespace ElementText

variable {name rest : List Char} {value : AttributeValue} {attributes : List (List Char × AttributeValue)}

/-- An attribute that can be told from what follows it. -/
def IsAttribute (a : List Char × AttributeValue) : Prop :=
  a.1 ≠ [] ∧ (∀ c ∈ a.1, isNameChar c = true) ∧ a.2.Ends

/-- The attributes one after the other, each behind a blank. -/
def attributesChars (attributes : List (List Char × AttributeValue)) : List Char :=
  attributes.flatMap fun a => ' ' :: (a.1 ++ a.2.chars)

/-- An attribute is followed by another one or by the end of the tag. -/
def AttributeEnds (rest : List Char) : Prop := ∃ c ∈ [' ', '>'], rest.head? = some c

/-- The opening tag ends here. -/
def TagEnds (rest : List Char) : Prop := rest = [' ', '/', '>'] ∨ ∃ t, rest = '>' :: t

lemma AttributeEnds.not_head {p : Char → Bool} (h : AttributeEnds rest) (hp : ∀ c ∈ [' ', '>'], p c = false) :
    ∀ c ∈ rest.head?, p c = false := by
  obtain ⟨c, hc, hhead⟩ := h
  rw [hhead]
  rintro d ⟨rfl⟩
  exact hp c hc

lemma TagEnds.attributeEnds (h : TagEnds rest) : AttributeEnds rest := by
  obtain rfl | ⟨t, rfl⟩ := h
  · exact ⟨' ', .head _, rfl⟩
  · exact ⟨'>', .tail _ (.head _), rfl⟩

lemma attributeEnds_append (attributes : List (List Char × AttributeValue)) (h : AttributeEnds rest) :
    AttributeEnds (attributesChars attributes ++ rest) := by
  cases attributes with
  | nil => exact h
  | cons a attributes => exact ⟨' ', .head _, rfl⟩

lemma readAttribute?_append (h : IsAttribute (name, value)) (hrest : AttributeEnds rest) :
    readAttribute? (name ++ (value.chars ++ rest)) = some ((name, value), rest) := by
  obtain ⟨hne, hname, hvalue⟩ := h
  have hstop : ∀ c ∈ (value.chars ++ rest).head?, isNameChar c = false := by
    cases value with
    | bare => exact hrest.not_head (by decide)
    | braced t | quoted t =>
      rintro c ⟨rfl⟩
      decide
  have hself : (name ++ (value.chars ++ rest)).takeWhile isNameChar = name :=
    Text.takeWhile_append_of_ends hname hstop
  have hequals : rest.head? ≠ some '=' := fun heq =>
    absurd (hrest.not_head (p := (· == '=')) (by decide) '=' heq) (by decide)
  have hread := AttributeValue.read?_chars hvalue hequals
  rw [readAttribute?, hself]
  dsimp only
  rw [if_neg (by simpa using hne), List.drop_left' rfl, hread, Option.map_some]

/-- The attributes of a tag are read as they are written, in their order, up to the end of the tag. -/
lemma readAttributes?_append (h : ∀ a ∈ attributes, IsAttribute a) (hrest : TagEnds rest) :
    readAttributes? (attributesChars attributes ++ rest) = some (attributes, rest) := by
  induction attributes with
  | nil =>
    rw [attributesChars, List.flatMap_nil, List.nil_append]
    obtain rfl | ⟨t, rfl⟩ := hrest
    · rw [readAttributes?]
      rfl
    · rw [readAttributes?]
      simp
  | cons a attributes ih =>
    obtain ⟨ha, has⟩ := List.forall_mem_cons.1 h
    have hread := readAttribute?_append ha (attributeEnds_append attributes hrest.attributeEnds)
    have hslash : (a.1 ++ (a.2.chars ++ (attributesChars attributes ++ rest))).head? ≠ some '/' := by
      obtain ⟨c, cs, hcs⟩ := List.exists_cons_of_ne_nil ha.1
      have hc := ha.2.1 c (hcs ▸ .head _)
      rw [hcs, List.cons_append, List.head?_cons]
      rintro ⟨rfl⟩
      exact absurd hc (by decide)
    have hsplit : attributesChars (a :: attributes) ++ rest =
        ' ' :: (a.1 ++ (a.2.chars ++ (attributesChars attributes ++ rest))) := by
      simp [attributesChars]
    rw [hsplit, readAttributes?, if_neg hslash]
    split
    · next hnone =>
      rw [hnone] at hread
      cases hread
    · next a' rest' hsome =>
      obtain ⟨rfl, rfl⟩ := Prod.mk.inj (Option.some.inj (hsome.symm.trans hread))
      rw [ih has, Option.map_some]

/-- What follows the attributes. -/
def ending (tag : List Char) : Option (List Char) → List Char
  | none => [' ', '/', '>']
  | some t => '>' :: (t ++ '<' :: '/' :: (tag ++ ['>']))

/-- An element as it is written. -/
def chars (e : ElementText) : List Char :=
  '<' :: (e.tag ++ (attributesChars e.attributes ++ ending e.tag e.children))

lemma tagEnds_ending (tag : List Char) (children : Option (List Char)) : TagEnds (ending tag children) := by
  cases children with
  | none => exact .inl rfl
  | some t => exact .inr ⟨_, rfl⟩

/-- An element is read as it is written. Its children may hold anything, tags of its own kind too. -/
lemma read?_elementChars {e : ElementText} (htag : ∀ c ∈ e.tag, isIdentifierPart c = true)
    (h : ∀ a ∈ e.attributes, IsAttribute a) : read? e.chars = some e := by
  obtain ⟨tag, attributes, children⟩ := e
  have hends := tagEnds_ending tag children
  have hstrip : Text.stripStart? ['<'] (chars ⟨tag, attributes, children⟩) =
      some (tag ++ (attributesChars attributes ++ ending tag children)) := rfl
  have hself : (tag ++ (attributesChars attributes ++ ending tag children)).takeWhile isIdentifierPart = tag :=
    Text.takeWhile_append_of_ends htag ((attributeEnds_append _ hends.attributeEnds).not_head (by decide))
  have hread := readAttributes?_append h hends
  simp only [read?, hstrip, hself, Option.bind_eq_bind, Option.bind_some, List.drop_left', hread]
  cases children with
  | none => rfl
  | some t =>
    have hsuffix : ('<' :: '/' :: (tag ++ ['>'])).isSuffixOf (t ++ '<' :: '/' :: (tag ++ ['>'])) = true :=
      List.isSuffixOf_iff_suffix.2 (List.suffix_append _ _)
    have htake : (t ++ '<' :: '/' :: (tag ++ ['>'])).take
        ((t ++ '<' :: '/' :: (tag ++ ['>'])).length - ('<' :: '/' :: (tag ++ ['>'])).length) = t := by
      rw [List.length_append, Nat.add_sub_cancel, List.take_left' rfl]
    simp only [ending, hsuffix, if_true, htake]

/-- The element of a component is written as its attributes are asked for. -/
lemma toList_element (d : Descriptor) (children : Option String) (attributes : List (String × String)) :
    (SnippetRequest.element d children attributes).toList = chars {
      tag := d.name.toList
      attributes := attributes.map fun a => (a.1.toList, AttributeValue.ofText a.2)
      children := if SnippetRequest.voidComponents.contains d.name then none
        else some (children.getD d.name).toList } := by
  have hattributes : (String.join (attributes.map fun a => SnippetRequest.attributeText a.1 a.2)).toList =
      attributesChars (attributes.map fun a => (a.1.toList, AttributeValue.ofText a.2)) := by
    induction attributes with
    | nil => rfl
    | cons a attributes ih =>
      rw [List.map_cons, String.join_cons, String.toList_append, ih, AttributeValue.toList_attributeText]
      rfl
  rw [SnippetRequest.element]
  split_ifs <;> simp [chars, ending, hattributes]

end ElementText

namespace SnippetRequest

variable {r : SnippetRequest} {d : Descriptor}

/-- The values that a request gives as texts. Its other values are JSON. -/
def givenTexts (r : SnippetRequest) : List String :=
  r.variant.toList ++ r.size.toList ++ r.attributes.entries.filterMap fun m => match m.2 with
    | .string text => some text
    | _ => none

lemma forall_attributesWith {q : String × String → Prop} {further : List (String × Json)} :
    (∀ a ∈ r.attributesWith further, q a) ↔ (∀ text ∈ r.variant.toList, q ("variant", text)) ∧
      (∀ text ∈ r.size.toList, q ("size", text)) ∧ ∀ m ∈ further, q (m.1, valueText m.2) := by
  simp only [attributesWith, List.forall_mem_append, List.forall_mem_map, Option.toList_map, and_assoc]

lemma closesBraces_of_givenTexts (h : ∀ text ∈ r.givenTexts, ClosesBraces text) :
    ∀ a ∈ r.attributesWith r.attributes.entries, ClosesBraces a.2 := by
  simp only [givenTexts, List.forall_mem_append] at h
  obtain ⟨⟨hvariant, hsize⟩, hfurther⟩ := h
  refine forall_attributesWith.2 ⟨hvariant, hsize, fun m hm => ?_⟩
  obtain ⟨name, v⟩ := m
  cases v with
  | string text => exact hfurther text (List.mem_filterMap.2 ⟨_, hm, rfl⟩)
  | _ => exact closesBraces_compact _

/--
A snippet reads back as what was asked for: the component's tag, then the variant, the size and all further attributes
in their order with their own values and nothing else, and the children up to the closing tag of the component. Only
what has no content closes itself.
-/
theorem read_render (hname : ∀ c ∈ d.name.toList, isIdentifierPart c = true)
    (hnames : ∀ m ∈ r.attributes.entries, m.1.toList ≠ [] ∧ ∀ c ∈ m.1.toList, ElementText.isNameChar c = true)
    (hvalues : ∀ text ∈ r.givenTexts, ClosesBraces text) :
    ElementText.read? (r.render d).toList = some {
      tag := d.name.toList
      attributes := (r.attributesWith r.attributes.entries).map fun a => (a.1.toList, AttributeValue.ofText a.2)
      children := if voidComponents.contains d.name then none else some (r.children.getD d.name).toList } := by
  have hnamed : ∀ a ∈ r.attributesWith r.attributes.entries,
      a.1.toList ≠ [] ∧ ∀ c ∈ a.1.toList, ElementText.isNameChar c = true := by
    have hvariant : "variant".toList ≠ [] ∧ ∀ c ∈ "variant".toList, ElementText.isNameChar c = true := by decide
    have hsize : "size".toList ≠ [] ∧ ∀ c ∈ "size".toList, ElementText.isNameChar c = true := by decide
    exact forall_attributesWith.2 ⟨fun _ _ => hvariant, fun _ _ => hsize, hnames⟩
  rw [render_eq_element, ElementText.toList_element]
  refine ElementText.read?_elementChars hname ?_
  rw [List.forall_mem_map]
  intro a ha
  obtain ⟨hne, hchars⟩ := hnamed a ha
  exact ⟨hne, hchars, AttributeValue.ends_ofText (closesBraces_of_givenTexts hvalues a ha)⟩

/-- A request with quotes, brackets and tags in its values and in its children. -/
def bracketRequest : SnippetRequest where
  componentName := "Card"
  variant := some "say \"a\" >"
  size := some "\x7bs['\x7d']\x7d"
  children := some "<Card>\x7bx\x7d</Card>"
  attributes := OrderedMap.ofList [("onClick", .string "(e) => f(e)"),
    ("data-x", .object [("\x7d", .array [.null, .string "\x7b\""])]), ("open", .bool true), ("shut", .string "false")]

theorem read_render_of_brackets :
    (∀ text ∈ bracketRequest.givenTexts, ClosesBraces text) ∧
    ElementText.read? (bracketRequest.render { name := "Card" }).toList = some {
      tag := "Card".toList
      attributes := [("variant".toList, .quoted "say &quot;a&quot; >".toList),
        ("size".toList, .braced "\x7bs['\x7d']\x7d".toList), ("onClick".toList, .braced "\x7b(e) => f(e)\x7d".toList),
        ("data-x".toList, .braced "\x7b\"\x7d\":[null,\"\x7b\\\"\"]\x7d".toList), ("open".toList, .bare),
        ("shut".toList, .braced "\x7bfalse\x7d".toList)]
      children := some "<Card>\x7bx\x7d</Card>".toList } := by
  have hvalues : ∀ text ∈ bracketRequest.givenTexts, ClosesBraces text := by decide
  have hread := read_render (r := bracketRequest) (d := { name := "Card" }) (by decide) (by decide) hvalues
  exact ⟨hvalues, hread.trans (by decide)⟩

end SnippetRequest

end UiCatalog
