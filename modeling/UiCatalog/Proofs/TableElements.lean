import UiCatalog.Demo.PropertyTable
import UiCatalog.Proofs.CodeElements
import UiCatalog.Proofs.MarkupText

/-!
# Table elements

A row of the property table is what stands between a `<tr>` tag and the next `</tr>`, a cell what stands between a
`<td>` tag and the next `</td>`. Whether such a tag starts or ends at a bracket only depends on the text up to the next
bracket, so a table written from rows and cells is read back piece by piece.
-/
namespace UiCatalog.Demo

open Text Pattern Code VariantConfig

/-! ## Texts -/

/-- A tag of the name starts: its name stands here, and no word goes on behind it. -/
def TagStart (name t : List Char) : Prop := ∃ rest, t = name ++ rest ∧ WordEnds rest

/-- A tag ends elements of the name. -/
def TagClose (name t : List Char) : Prop := '/' :: (name ++ ['>']) <+: t

/-- Behind no bracket of the text stands such a tag. -/
def Lacks (mark : List Char → Prop) (t : List Char) : Prop := ∀ a b, t = a ++ '<' :: b → ¬ mark b

def openTag (name attributes : List Char) : List Char := '<' :: (name ++ (attributes ++ ['>']))

def closeTag (name : List Char) : List Char := '<' :: '/' :: (name ++ ['>'])

/-- What may stand behind the name in a tag. -/
structure Attributes (t : List Char) : Prop where
  ends : WordEnds t
  plain : '<' ∉ t ∧ '>' ∉ t

/-- A text with the elements of a name in it, one behind the other; `contents` are their contents. -/
inductive Holding (name : List Char) : List (List Char) → List Char → Prop
  | outside {t} : Lacks (TagStart name) t → Holding name [] t
  | element {lead attributes content contents rest} : Lacks (TagStart name) lead → Attributes attributes →
      Lacks (TagClose name) content → Holding name contents rest →
      Holding name (content :: contents)
        (lead ++ (openTag name attributes ++ (content ++ (closeTag name ++ rest))))

/-- The columns of a row. -/
def PropertyRow.texts (row : PropertyRow) : List (List Char) :=
  [row.name.toList, row.type.toList, row.default.toList, row.description.toList]

/-- What stands between the cells of a row. -/
structure BetweenCells (t : List Char) : Prop where
  cells : Lacks (TagStart "td".toList) t
  row : Lacks (TagClose "tr".toList) t
  sections : Lacks (TagStart "Section".toList) t

/-- The content of a row, with the cells' texts; `cell` says how a text is written in a cell. -/
inductive RowText (cell : List Char → List Char → Prop) : List (List Char) → List Char → Prop
  | outside {t} : BetweenCells t → RowText cell [] t
  | cell {lead attributes text content texts rest} : BetweenCells lead → Attributes attributes → cell text content →
      RowText cell texts rest → RowText cell (text :: texts)
        (lead ++ (openTag "td".toList attributes ++ (content ++ (closeTag "td".toList ++ rest))))

/-- What stands between the rows of a table. -/
structure BetweenRows (t : List Char) : Prop where
  rows : Lacks (TagStart "tr".toList) t
  sections : Lacks (TagStart "Section".toList) t

/-- A table with the rows that count. Those with another number of cells or without a name, such as a header, do not. -/
inductive TableText (cell : List Char → List Char → Prop) : List PropertyRow → List Char → Prop
  | outside {t} : BetweenRows t → TableText cell [] t
  | row {lead attributes row content rows rest} : BetweenRows lead → Attributes attributes → row.name ≠ "" →
      RowText cell row.texts content → TableText cell rows rest → TableText cell (row :: rows)
        (lead ++ (openTag "tr".toList attributes ++ (content ++ (closeTag "tr".toList ++ rest))))
  | skipped {lead attributes texts content rows rest} : BetweenRows lead → Attributes attributes →
      (texts.length ≠ 4 ∨ texts.head? = some []) → RowText cell texts content → TableText cell rows rest →
      TableText cell rows
        (lead ++ (openTag "tr".toList attributes ++ (content ++ (closeTag "tr".toList ++ rest))))

/-- A text that can stand in a cell: it ends neither the cell nor the row, and no section starts in it. -/
structure IsCellContent (t : List Char) : Prop where
  cell : Lacks (TagClose "td".toList) t
  row : Lacks (TagClose "tr".toList) t
  sections : Lacks (TagStart "Section".toList) t

lemma isWordName_td : IsWordName "td".toList := ⟨by decide, by decide⟩

lemma isWordName_tr : IsWordName "tr".toList := ⟨by decide, by decide⟩

lemma isWordName_section : IsWordName "Section".toList := ⟨by decide, by decide⟩

variable {c : Char} {name attributes content t u v z rest lead inside : List Char} {contents : List (List Char)}
  {mark : List Char → Prop} {cell : List Char → List Char → Prop}

/-! ## Tags at brackets -/

/-- A character that stands in no tag, but for the bracket that closes it: neither in a name nor as the slash before
one. -/
def Separates (c : Char) : Prop := isWord c = false ∧ c ≠ '/'

/-- Which tag stands behind a bracket is seen from the text before the next character that stands in no tag, or up to
the bracket that closes it. -/
structure IsMark (mark : List Char → Prop) : Prop where
  before : ∀ z c v, Separates c → c ≠ '>' → mark (z ++ c :: v) → mark z
  upTo : ∀ z c v, Separates c → mark (z ++ c :: v) → mark (z ++ [c])

/-- The text ends in a character that stands neither in a tag nor before one. -/
def Settled (t : List Char) : Prop := ∀ c ∈ t.getLast?, Separates c ∧ c ≠ '<'

/-- No tag goes over from the one text into the other. -/
def Seam (t u : List Char) : Prop := (∀ c ∈ u.head?, Separates c ∧ c ≠ '>') ∨ Settled t

lemma separates_bracket : Separates '<' ∧ '<' ≠ '>' := ⟨⟨by decide, by decide⟩, by decide⟩

lemma seam_nil (t : List Char) : Seam t [] := .inl fun _ hc => by cases hc

lemma seam_cons (hc : Separates c ∧ c ≠ '>') (t u : List Char) : Seam t (c :: u) :=
  .inl fun _ hd => Option.some.inj hd ▸ hc

lemma seam_bracket (t u : List Char) : Seam t ('<' :: u) := seam_cons separates_bracket t u

lemma wordEnds_append_cons (hc : isWord c = false) : WordEnds (t ++ c :: u) ↔ WordEnds t := by
  cases t with
  | nil => simp [WordEnds, hc]
  | cons d t => simp [WordEnds]

lemma isMark_tagStart (hname : ∀ c ∈ name, isWord c = true) : IsMark (TagStart name) := by
  have hsplit {z v : List Char} {c : Char} (hc : isWord c = false) (h : TagStart name (z ++ c :: v)) :
      ∃ rest, z = name ++ rest ∧ WordEnds rest := by
    obtain ⟨rest, htext, hends⟩ := h
    obtain ⟨y, rfl⟩ := exists_append_of_not_mem htext fun hmem => by simp [hname c hmem] at hc
    rw [List.append_assoc, List.append_cancel_left_eq] at htext
    exact ⟨y, rfl, (wordEnds_append_cons hc).1 (htext ▸ hends)⟩
  refine ⟨fun z c v hc _ h => hsplit hc.1 h, fun z c v hc h => ?_⟩
  obtain ⟨y, rfl, hends⟩ := hsplit hc.1 h
  exact ⟨y ++ [c], List.append_assoc _ _ _, (wordEnds_append_cons hc.1).2 hends⟩

lemma isMark_tagClose (hname : ∀ c ∈ name, isWord c = true) : IsMark (TagClose name) := by
  have hsplit {z v : List Char} {c : Char} (hc : Separates c) (h : TagClose name (z ++ c :: v)) :
      c = '>' ∧ z = '/' :: name ∨ TagClose name z := by
    obtain ⟨u, hu⟩ := h
    have htext : z ++ c :: v = '/' :: name ++ '>' :: u := by simpa using hu.symm
    have hnot : c ∉ '/' :: name := by
      rintro (_ | ⟨_, hmem⟩)
      · exact hc.2 rfl
      · simp [Separates, hname c hmem] at hc
    obtain ⟨y, rfl⟩ := exists_append_of_not_mem htext hnot
    rw [List.append_assoc, List.append_cancel_left_eq] at htext
    cases y with
    | nil => exact .inl ⟨(List.cons.inj htext).1, List.append_nil _⟩
    | cons d y =>
      obtain rfl : d = '>' := (List.cons.inj htext).1
      exact .inr ⟨y, by simp⟩
  refine ⟨fun z c v hc hne h => (hsplit hc h).resolve_left fun h => hne h.1, fun z c v hc h => ?_⟩
  · rcases hsplit hc h with ⟨rfl, rfl⟩ | ⟨u, rfl⟩
    · exact List.prefix_rfl
    · exact ⟨u ++ [c], by simp⟩

lemma settled_concat : Settled (t ++ [c]) ↔ Separates c ∧ c ≠ '<' := by
  simp [Settled]

lemma lacks_of_not_mem (h : '<' ∉ t) : Lacks mark t := by
  rintro a b rfl
  simp at h

lemma lacks_append_of_not_mem (h : '<' ∉ t) (hu : Lacks mark u) : Lacks mark (t ++ u) := by
  rintro a b htext hb
  obtain ⟨a, rfl⟩ := exists_append_of_not_mem htext.symm h
  rw [List.append_assoc, List.append_cancel_left_eq] at htext
  exact hu a b htext hb

/-- What follows behind a seam makes up no such tag. -/
lemma Lacks.not_mark_append (hmark : IsMark mark) (h : Lacks mark (u ++ '<' :: z)) (hseam : Seam (u ++ '<' :: z) v) :
    ¬ mark (z ++ v) := by
  have hz : ¬ mark z := h u z rfl
  intro hb
  rcases hseam with hfirst | hlast
  · cases v with
    | nil => exact hz (by rwa [List.append_nil] at hb)
    | cons c v => exact hz (hmark.before z c v (hfirst c rfl).1 (hfirst c rfl).2 hb)
  · obtain rfl | ⟨z, c, rfl⟩ := List.eq_nil_or_concat z
    · exact absurd rfl (hlast '<' (by simp)).2
    · rw [List.concat_eq_append, ← List.cons_append, ← List.append_assoc, settled_concat] at hlast
      rw [List.concat_eq_append] at hb hz
      rw [List.append_assoc] at hb
      exact hz (hmark.upTo z c v hlast.1 hb)

/-- Two texts without such a tag make up a text without one. -/
lemma Lacks.append (hmark : IsMark mark) (ht : Lacks mark t) (hu : Lacks mark u) (h : Seam t u) :
    Lacks mark (t ++ u) := by
  intro a b htext hb
  rcases List.append_eq_append_iff.1 htext with ⟨y, rfl, hy⟩ | ⟨y, rfl, hy⟩
  · exact hu y b hy hb
  · rcases List.cons_eq_append_iff.1 hy with ⟨rfl, hrest⟩ | ⟨z, rfl, rfl⟩
    · exact hu [] b hrest hb
    · exact ht.not_mark_append hmark h hb

/-! ## The pattern of an element -/

def elementOpening (name : String) : Pattern :=
  text "<" ++ (text name ++ (wordEdge ++ (many (· != '>') ++ char '>')))

def elementClosing (name : String) : Pattern := text "</" ++ (text name ++ char '>')

lemma matchAt?_element_eq (name : String) : matchAt? (element name) =
    matchAt? (elementOpening name ++ (group 1 (few anyChar) ++ elementClosing name)) := rfl

lemma reaches_elementOpening {name : String} {p q : Point} (hn : IsWordName name.toList) :
    Reaches (elementOpening name) p q ↔ ∃ attributes rest, p.rest = openTag name.toList attributes ++ rest ∧
      WordEnds attributes ∧ '>' ∉ attributes ∧ q = p.over (openTag name.toList attributes) rest := by
  have hedge {u r rest : List Char} :
      ((p.over "<".toList r).over name.toList (u ++ '>' :: rest)).atWordEdge = true ↔ WordEnds u := by
    rw [Point.over_over, atWordEdge_over (by simp), edgeBetween_append _ hn.1,
      edgeBetween_iff (fun c hc => hn.2 c (List.mem_of_getLast? hc)) hn.1, wordEnds_append_cons (by decide)]
  have hover (attributes r r' rest : List Char) :
      ((p.over "<".toList r).over name.toList r').over (attributes ++ ['>']) rest =
        p.over (openTag name.toList attributes) rest := by
    rw [Point.over_over, Point.over_over]
    simp [openTag]
  have hplain : Plain (many (· != '>') ++ char '>') := ⟨trivial, trivial⟩
  simp only [elementOpening, reaches_append, reaches_iff_of_plain (plain_text _), reaches_iff_of_plain hplain,
    spells_text]
  constructor
  · rintro ⟨_, ⟨_, r, rfl, hp, rfl⟩, _, ⟨_, r', rfl, hr, rfl⟩, _, ⟨hword, rfl⟩, xs, rest, hxs, hr', rfl⟩
    obtain ⟨attributes, _, hattributes, hend, rfl⟩ := hxs
    obtain rfl := spells_char.1 hend
    have hr : r = name.toList ++ r' := hr
    have hr' : r' = attributes ++ ['>'] ++ rest := hr'
    subst hr hr'
    refine ⟨attributes, rest, by simpa [openTag] using hp, hedge.1 (by simpa using hword), fun hmem => ?_, hover ..⟩
    simpa using hattributes _ hmem
  · rintro ⟨attributes, rest, hp, hends, hnot, rfl⟩
    have hp : p.rest = "<".toList ++ (name.toList ++ (attributes ++ '>' :: rest)) := by simpa [openTag] using hp
    refine ⟨_, ⟨_, _, rfl, hp, rfl⟩, _, ⟨_, _, rfl, rfl, rfl⟩, _, ⟨hedge.2 hends, rfl⟩, attributes ++ ['>'], rest,
      ⟨attributes, ['>'], fun c hc => ?_, spells_char.2 rfl, rfl⟩, by simp, (hover ..).symm⟩
    simpa using ne_of_mem_of_not_mem hc hnot

lemma spells_elementClosing {name : String} : Spells (elementClosing name) t ↔ t = closeTag name.toList := by
  simp [elementClosing, closeTag]

lemma plain_elementClosing (name : String) : Plain (elementClosing name) := by simp [elementClosing]

lemma oneWay_elementOpening {name : String} (hn : IsWordName name.toList) : OneWay (elementOpening name) := by
  intro p q q' hq hq'
  obtain ⟨attributes, rest, hp, -, hnot, rfl⟩ := (reaches_elementOpening hn).1 hq
  obtain ⟨attributes', rest', hp', -, hnot', rfl⟩ := (reaches_elementOpening hn).1 hq'
  have hsame : attributes ++ '>' :: rest = attributes' ++ '>' :: rest' := by simpa [openTag, hp] using hp'
  obtain rfl := append_cons_cancel hnot hnot' hsame
  rw [List.append_cancel_left_eq, List.cons.injEq] at hsame
  rw [hsame.2]

lemma oneWay_elementClosing (name : String) : OneWay (elementClosing name) :=
  (oneWay_text _).append ((oneWay_text _).append oneWay_one)

/-- An element is read up to the first closing tag. -/
lemma matchAt?_element {name : String} (hn : IsWordName name.toList) (ha : Attributes attributes)
    (hcontent : Lacks (TagClose name.toList) content) (before : Option Char) (offset : ℕ) (rest : List Char) :
    ∃ found, matchAt? (element name) before offset (openTag name.toList attributes ++
        (content ++ (closeTag name.toList ++ rest))) = some found ∧
      found.stop = offset + (openTag name.toList attributes ++ (content ++ closeTag name.toList)).length ∧
      found.get 1 = content := by
  let tail : List Char := closeTag name.toList ++ rest
  let start : Point := ⟨before, offset, openTag name.toList attributes ++ (content ++ tail), []⟩
  let inner : Point := start.over (openTag name.toList attributes) (content ++ tail)
  have hopening : Reaches (elementOpening name) start inner :=
    (reaches_elementOpening hn).2 ⟨attributes, _, rfl, ha.ends, ha.plain.2, rfl⟩
  have hclosing (p : Point) (hp : p.rest = tail) :
      Reaches (elementClosing name) p (p.over (closeTag name.toList) rest) :=
    reaches_of_spells (plain_elementClosing name) (spells_elementClosing.2 rfl) hp
  -- no closing tag starts within the content
  have hfirst (a b : List Char) (hab : content = a ++ b) (hb : b ≠ []) (p : Point) (hp : p.rest = b ++ tail)
      (q : Point) :
      ¬ Reaches (elementClosing name) p q := by
    intro hq
    obtain ⟨u, rest', hu, hrest, -⟩ := (reaches_iff_of_plain (plain_elementClosing name)).1 hq
    rw [hp, spells_elementClosing.1 hu] at hrest
    obtain ⟨c, b, rfl⟩ := List.exists_cons_of_ne_nil hb
    obtain ⟨rfl, hclose⟩ := List.cons.inj hrest
    exact hcontent a b hab ((isMark_tagClose hn.2).before b _ _ separates_bracket.1 separates_bracket.2
      ⟨rest', hclose.symm⟩)
  let last : Point := { inner.over content tail with
    groups := [(1, ⟨inner.offset, inner.offset + content.length, content ++ tail⟩)] }
  have hgroup : run (group 1 (few anyChar)) inner (fun p => run (elementClosing name) p fun q =>
      some (⟨⟨offset, q.offset, start.rest⟩, q.groups⟩ : Match)) =
      some ⟨⟨offset, (last.over (closeTag name.toList) rest).offset, start.rest⟩, last.groups⟩ := by
    rw [run_group]
    refine run_few_iff.2 ⟨content, tail, rfl, fun _ _ => rfl, fun a b hab hb => ?_, ?_⟩
    · exact run_of_not_reaches (hfirst a b hab hb _ rfl)
    · exact run_of_oneWay (oneWay_elementClosing name) (hclosing last rfl)
  refine ⟨_, (run_of_oneWay (oneWay_elementOpening hn) hopening).trans hgroup, ?_, get_one_of_length rfl tail⟩
  simp [Match.stop, last, inner, start]
  omega

/-- Where no tag of the name starts there is no element. -/
lemma quiet_element {name : String} (hn : IsWordName name.toList) (h : Lacks (TagStart name.toList) t)
    (hseam : Seam t rest) : Quiet (element name) t rest := by
  rintro a b before offset rfl hb
  refine Option.eq_none_iff_forall_ne_some.2 fun found hfound => ?_
  rw [matchAt?_element_eq] at hfound
  obtain ⟨q, ⟨m, hm, -⟩, -⟩ := exists_reaches_of_matchAt? hfound
  obtain ⟨attributes, behind, htext, hends, -⟩ := (reaches_elementOpening hn).1 hm
  obtain ⟨c, b, rfl⟩ := List.exists_cons_of_ne_nil hb
  obtain ⟨rfl, htag⟩ : c = '<' ∧ b ++ rest = name.toList ++ (attributes ++ '>' :: behind) := by
    simpa [openTag] using htext
  exact h.not_mark_append (isMark_tagStart hn.2) hseam ⟨_, htag, (wordEnds_append_cons (by decide)).2 hends⟩

lemma matchAt?_element_nil {name : String} (hn : IsWordName name.toList) (before : Option Char) (offset : ℕ) :
    matchAt? (element name) before offset [] = none := by
  refine Option.eq_none_iff_forall_ne_some.2 fun found hfound => ?_
  rw [matchAt?_element_eq] at hfound
  obtain ⟨q, ⟨m, hm, -⟩, -⟩ := exists_reaches_of_matchAt? hfound
  obtain ⟨attributes, behind, htext, -⟩ := (reaches_elementOpening hn).1 hm
  cases htext

/-- The elements of a text are its elements one after the other. -/
theorem findAllFrom_of_holding {name : String} (hn : IsWordName name.toList) (h : Holding name.toList contents t)
    (before : Option Char) (offset : ℕ) :
    ((element name).findAllFrom 0 before offset t).map (·.get 1) = contents := by
  induction h generalizing before offset with
  | @outside t ht =>
    have hquiet : (element name).findAllFrom 0 before offset (t ++ []) = _ :=
      findAllFrom_of_quiet (quiet_element hn ht (seam_nil t)) before offset
    rw [← List.append_nil t, hquiet, findAllFrom, matchAt?_element_nil hn, Option.toList_none, List.map_nil]
  | @element lead attributes content contents rest hlead ha hcontent _ ih =>
    obtain ⟨found, hfound, hstop, hget⟩ :=
      matchAt?_element hn ha hcontent (lead.getLast?.or before) (offset + lead.length) rest
    have hne : openTag name.toList attributes ++ (content ++ closeTag name.toList) ≠ [] := List.cons_ne_nil _ _
    have htext : openTag name.toList attributes ++ (content ++ (closeTag name.toList ++ rest)) =
        openTag name.toList attributes ++ (content ++ closeTag name.toList) ++ rest := by
      simp only [List.append_assoc]
    have hquiet : Quiet (element name) lead
        (openTag name.toList attributes ++ (content ++ closeTag name.toList) ++ rest) :=
      quiet_element hn hlead (seam_bracket lead _)
    rw [htext] at hfound ⊢
    rw [findAllFrom_of_quiet hquiet, findAllFrom_of_match hne hfound hstop, List.map_cons, hget, ih]

/-! ## Reading a table -/

lemma settled_openTag (name attributes : List Char) : Settled (openTag name attributes) := by
  rw [openTag, ← List.append_assoc, ← List.cons_append, settled_concat]
  exact ⟨⟨by decide, by decide⟩, by decide⟩

lemma settled_closeTag (name : List Char) : Settled (closeTag name) := by
  rw [closeTag, ← List.cons_append, ← List.cons_append, settled_concat]
  exact ⟨⟨by decide, by decide⟩, by decide⟩

lemma IsWordName.not_mem (hn : IsWordName name) (hc : isWord c = false) : c ∉ name := fun hmem => by
  simp [hn.2 c hmem] at hc

lemma IsWordName.not_slash (hn : IsWordName name) {t u : List Char} : '/' :: t ≠ name ++ u := by
  intro hslash
  obtain ⟨c, cs, rfl⟩ := List.exists_cons_of_ne_nil hn.1
  obtain rfl := (List.cons.inj hslash).1
  exact absurd (hn.2 '/' (.head _)) (by decide)

/-- Only what stands behind the one bracket says which tag it is. -/
lemma lacks_bracket (h : '<' ∉ t) (hmark : ¬ mark t) : Lacks mark ('<' :: t) := by
  intro a b htext hb
  rcases List.cons_eq_append_iff.1 htext with ⟨rfl, hinside⟩ | ⟨a, rfl, hinside⟩
  · exact hmark ((List.cons.inj hinside).2 ▸ hb)
  · simp [hinside] at h

lemma lacks_openTag (hn : IsWordName name) (ha : Attributes attributes)
    (h : ¬ mark (name ++ (attributes ++ ['>']))) : Lacks mark (openTag name attributes) := by
  refine lacks_bracket ?_ h
  simp [hn.not_mem (c := '<') (by decide), ha.plain.1]

lemma lacks_closeTag (hn : IsWordName name) (h : ¬ mark ('/' :: (name ++ ['>']))) : Lacks mark (closeTag name) := by
  refine lacks_bracket ?_ h
  simp [hn.not_mem (c := '<') (by decide)]

section OtherNames

variable {name' : List Char}

lemma lacks_close_of_openTag (hn : IsWordName name') (ha : Attributes attributes) :
    Lacks (TagClose name) (openTag name' attributes) := by
  refine lacks_openTag hn ha ?_
  rintro ⟨u, hu⟩
  exact hn.not_slash hu

lemma lacks_close_of_closeTag (hn : IsWordName name) (hn' : IsWordName name') (hne : name ≠ name') :
    Lacks (TagClose name) (closeTag name') := by
  refine lacks_closeTag hn' ?_
  rintro ⟨u, hu⟩
  have hsame : name ++ '>' :: u = name' ++ ['>'] := by simpa using hu
  exact hne (append_cons_cancel (hn.not_mem (by decide)) (hn'.not_mem (by decide)) hsame)

lemma lacks_start_of_openTag (hn : IsWordName name) (hn' : IsWordName name') (hne : name ≠ name')
    (ha : Attributes attributes) : Lacks (TagStart name) (openTag name' attributes) := by
  refine lacks_openTag hn' ha ?_
  rintro ⟨rest, hsame, hends⟩
  have htake := takeWhile_append_of_ends hn'.2 ((wordEnds_append_cons (u := []) (c := '>') (by decide)).2 ha.ends)
  rw [hsame, takeWhile_append_of_ends hn.2 hends] at htake
  exact hne htake

lemma lacks_start_of_closeTag (hn : IsWordName name) (hn' : IsWordName name') :
    Lacks (TagStart name) (closeTag name') := by
  refine lacks_closeTag hn' ?_
  rintro ⟨rest, hsame, -⟩
  exact hn.not_slash hsame

end OtherNames

/-- An element in a text is settled piece by piece. -/
lemma lacks_element (hmark : IsMark mark) (hlead : Lacks mark lead) (hopen : Lacks mark (openTag name attributes))
    (hcontent : Lacks mark content) (hclose : Lacks mark (closeTag name)) (hrest : Lacks mark rest) :
    Lacks mark (lead ++ (openTag name attributes ++ (content ++ (closeTag name ++ rest)))) := by
  refine hlead.append hmark (hopen.append hmark (hcontent.append hmark (hclose.append hmark hrest ?_) ?_) ?_) ?_
  · exact .inr (settled_closeTag name)
  · exact seam_bracket _ _
  · exact .inr (settled_openTag name attributes)
  · exact seam_bracket _ _

lemma Holding.prepend (hname : ∀ c ∈ name, isWord c = true) (ht : Lacks (TagStart name) t) (hsettled : Settled t)
    (h : Holding name contents u) : Holding name contents (t ++ u) := by
  cases h with
  | outside hu => exact .outside (ht.append (isMark_tagStart hname) hu (.inr hsettled))
  | element hlead ha hcontent hrest =>
    rw [← List.append_assoc]
    exact .element (ht.append (isMark_tagStart hname) hlead (.inr hsettled)) ha hcontent hrest

/-- How a text is written in a cell: it is read back, and nothing in it is taken for a part of the page. -/
def IsCell (cell : List Char → List Char → Prop) : Prop :=
  ∀ text content, cell text content → plainText content = text ∧ IsCellContent content

lemma RowText.exists_holding {texts : List (List Char)} (hcell : IsCell cell) (h : RowText cell texts content) :
    ∃ contents, Holding "td".toList contents content ∧ contents.map plainText = texts := by
  induction h with
  | outside ht => exact ⟨[], .outside ht.cells, rfl⟩
  | cell hlead ha htext _ ih =>
    obtain ⟨contents, hholding, htexts⟩ := ih
    obtain ⟨hread, hcontent⟩ := hcell _ _ htext
    exact ⟨_ :: contents, .element hlead.cells ha hcontent.cell hholding, by rw [List.map_cons, hread, htexts]⟩

lemma RowText.lacks {texts : List (List Char)} (hcell : IsCell cell) (h : RowText cell texts content) :
    Lacks (TagClose "tr".toList) content ∧ Lacks (TagStart "Section".toList) content := by
  induction h with
  | outside ht => exact ⟨ht.row, ht.sections⟩
  | @cell lead attributes text content texts rest hlead ha htext _ ih =>
    obtain ⟨-, hcontent⟩ := hcell _ _ htext
    exact ⟨lacks_element (isMark_tagClose isWordName_tr.2) hlead.row (lacks_close_of_openTag isWordName_td ha)
      hcontent.row
        (lacks_close_of_closeTag isWordName_tr isWordName_td (by decide)) ih.1,
      lacks_element (isMark_tagStart isWordName_section.2) hlead.sections
        (lacks_start_of_openTag isWordName_section isWordName_td (by decide) ha) hcontent.sections
        (lacks_start_of_closeTag isWordName_section isWordName_td) ih.2⟩

/-- A row in the content of a table, as it is read. -/
def rowOf? (content : List Char) : Option PropertyRow :=
  row? (((element "td").findAll content).map fun cell => plainText (cell.get 1))

lemma rowOf?_eq {texts : List (List Char)} (hcell : IsCell cell) (h : RowText cell texts content) :
    rowOf? content = row? texts := by
  obtain ⟨contents, hholding, htexts⟩ := h.exists_holding hcell
  have hcells := findAllFrom_of_holding isWordName_td hholding none 0
  rw [rowOf?, findAll, ← htexts, ← hcells, List.map_map]
  rfl

lemma row?_texts {row : PropertyRow} (h : row.name ≠ "") : row? row.texts = some row := by
  have hname : row.name.toList.isEmpty = false := by simpa using h
  rw [PropertyRow.texts, row?, hname]
  simp

lemma row?_eq_none {texts : List (List Char)} (h : texts.length ≠ 4 ∨ texts.head? = some []) : row? texts = none := by
  unfold row?
  split
  · rcases h with hlength | hhead
    · exact absurd rfl hlength
    · rw [Option.some.inj hhead]
      rfl
  · rfl

lemma TableText.exists_holding {rows : List PropertyRow} (hcell : IsCell cell) (h : TableText cell rows content) :
    ∃ contents, Holding "tr".toList contents content ∧ contents.filterMap rowOf? = rows := by
  induction h with
  | outside ht => exact ⟨[], .outside ht.rows, rfl⟩
  | row hlead ha hname hrow _ ih =>
    obtain ⟨contents, hholding, hrows⟩ := ih
    refine ⟨_ :: contents, .element hlead.rows ha (hrow.lacks hcell).1 hholding, ?_⟩
    rw [List.filterMap_cons_some ((rowOf?_eq hcell hrow).trans (row?_texts hname)), hrows]
  | skipped hlead ha hskip hrow _ ih =>
    obtain ⟨contents, hholding, hrows⟩ := ih
    refine ⟨_ :: contents, .element hlead.rows ha (hrow.lacks hcell).1 hholding, ?_⟩
    rw [List.filterMap_cons_none ((rowOf?_eq hcell hrow).trans (row?_eq_none hskip)), hrows]

/-- No section starts in a table. -/
lemma TableText.lacks_section {rows : List PropertyRow} (hcell : IsCell cell) (h : TableText cell rows content) :
    Lacks (TagStart "Section".toList) content := by
  have hrow {lead attributes content rest : List Char} {texts : List (List Char)} (hlead : BetweenRows lead)
      (ha : Attributes attributes) (hrow : RowText cell texts content) (ih : Lacks (TagStart "Section".toList) rest) :
      Lacks (TagStart "Section".toList)
        (lead ++ (openTag "tr".toList attributes ++ (content ++ (closeTag "tr".toList ++ rest)))) :=
    lacks_element (isMark_tagStart isWordName_section.2) hlead.sections
      (lacks_start_of_openTag isWordName_section isWordName_tr (by decide) ha) (hrow.lacks hcell).2
      (lacks_start_of_closeTag isWordName_section isWordName_tr) ih
  induction h with
  | outside ht => exact ht.sections
  | row hlead ha _ htexts _ ih => exact hrow hlead ha htexts ih
  | skipped hlead ha _ htexts _ ih => exact hrow hlead ha htexts ih

/-- Behind other text, the rows of a table are read as they were written. -/
theorem elementRows_of_table {rows : List PropertyRow} (hcell : IsCell cell) (h : TableText cell rows content)
    (ht : Lacks (TagStart "tr".toList) t) (hsettled : Settled t) : elementRows (t ++ content) = rows := by
  obtain ⟨contents, hholding, hrows⟩ := h.exists_holding hcell
  have hcontents := findAllFrom_of_holding isWordName_tr (hholding.prepend isWordName_tr.2 ht hsettled) none 0
  rw [elementRows, findAll, ← hrows, ← hcontents, List.filterMap_map]
  rfl

end UiCatalog.Demo
