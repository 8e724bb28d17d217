import UiCatalog.Proofs.TableElements

/-!
# The property section

The rows of the property table are looked for from the first section titled `Props` up to the next section. A table in
that part is read as it was written, whether its texts stand in the cells as markup or in string expressions.
-/
namespace UiCatalog.Demo

open Text Pattern Code VariantConfig

/-! ## Texts -/

/-- The title is `props` in any case, with any white space around it. -/
def IsPropsTitle (title : List Char) : Prop :=
  ∃ w word w', IsSpace w ∧ IsSpace w' ∧ asciiLower word = "props".toList ∧ title = w ++ (word ++ w')

/-- The first section titled `Props` of a page: its opening up to the title, what follows up to the next section, and
the rest of the page. No earlier opening goes over into it. -/
structure PropsSection (page lead opening content tail : List Char) : Prop where
  text : page = lead ++ (opening ++ (content ++ tail))
  starts : ∃ title, IsPropsTitle title ∧ SectionAt page lead.length title opening
  first : ∀ place title extent, SectionAt page place title extent → place < lead.length →
    ¬ IsPropsTitle title ∧ place + extent.length ≤ lead.length
  last : tail = [] ∨ ∃ title extent, SectionAt page (lead ++ (opening ++ content)).length title extent

/-- The words of the text are separated by single spaces, and there is nothing around them. -/
def IsLine (t : List Char) : Prop := squeeze t = t

/-- A cell with a text as markup, with any white space around it. -/
def MarkupCell (text content : List Char) : Prop :=
  IsLine text ∧ ∃ w w', IsSpace w ∧ IsSpace w' ∧ MarkupOf (w ++ (text ++ w')) content

/-- A cell with a text in a string expression. Nothing in the text looks like a tag or an entity. -/
def StringCell (text content : List Char) : Prop :=
  IsLine text ∧ ExpressionOf text content ∧ TagFree text ∧ EntityFree text ∧ Lacks (TagStart "Section".toList) text

variable {page lead opening content tail title extent t m : List Char} {place : ℕ}

/-! ## The part of the page that is searched -/

lemma not_blank_of_toLower {c : Char} (h : isBlank c.toLower = false) : isBlank c = false := by
  by_cases hc : c.isUpper = true
  · have hascii : c.toNat < 0x80 := by
      simp only [Char.isUpper, decide_eq_true_eq] at hc
      exact Nat.lt_of_le_of_lt (UInt32.le_iff_toNat_le.1 hc.2) (by decide)
    exact forall_ascii (p := fun c => c.isUpper = true → isBlank c = false) (by decide) hascii hc
  · rwa [Char.toLower, dif_neg (by simpa [Char.isUpper] using hc)] at h

lemma isPropsTitle_iff : isPropsTitle title = true ↔ IsPropsTitle title := by
  rw [isPropsTitle, beq_iff_eq]
  constructor
  · intro h
    obtain ⟨w, w', hw, hw', htitle⟩ := exists_trim title
    exact ⟨w, trim title, w', hw, hw', h, htitle⟩
  · rintro ⟨w, word, w', hw, hw', hword, rfl⟩
    have hrun : IsRun word := by
      refine ⟨?_, fun c hc => not_blank_of_toLower ?_⟩
      · rintro rfl
        cases hword
      · have hprops : ∀ d ∈ "props".toList, isBlank d = false := by decide
        exact hprops _ (hword ▸ List.mem_map_of_mem hc)
    rw [trim_space_append hw, trim_append_space hw', trim_of_isRun hrun, hword]

/-- What stands where a section does. -/
lemma SectionAt.tagStart (h : SectionAt page place title extent) :
    ∃ t, page.drop place = '<' :: t ∧ TagStart "Section".toList t := by
  obtain ⟨lead, t, rest, hplace, hsection, -⟩ := h
  exact ⟨_, hplace, _, rfl, hsection.tagEnds⟩

section Region

variable (h : PropsSection page lead opening content tail) (hcontent : Lacks (TagStart "Section".toList) content)
include h hcontent

omit hcontent in
lemma PropsSection.seam : Seam content tail := by
  rcases h.last with rfl | ⟨title, extent, hsection⟩
  · exact seam_nil content
  · obtain ⟨t, htail, -⟩ := hsection.tagStart
    have hsplit : lead ++ (opening ++ content) ++ tail = page := by simp [h.text]
    rw [← hsplit, List.drop_left] at htail
    exact htail ▸ seam_bracket content t

/-- Behind its opening, no section starts in the property section. -/
lemma PropsSection.le_of_sectionAt (hsection : SectionAt page place title extent)
    (hplace : (lead ++ opening).length ≤ place) : (lead ++ (opening ++ content)).length ≤ place := by
  by_contra hlt
  obtain ⟨t, htext, htag⟩ := hsection.tagStart
  obtain ⟨n, rfl⟩ := Nat.exists_eq_add_of_le hplace
  have hsplit : page = lead ++ opening ++ (content ++ tail) := by simp [h.text]
  have hn : n < content.length := by
    simp only [List.length_append] at hlt
    omega
  rw [hsplit, List.drop_length_add_append, List.drop_append_of_le_length hn.le, List.drop_eq_getElem_cons hn] at htext
  obtain ⟨hc, rfl⟩ := List.cons.inj htext
  have hcut : content = content.take n ++ '<' :: content.drop (n + 1) := by
    rw [← hc, List.getElem_cons_drop, List.take_append_drop]
  rw [hcut] at hcontent
  exact hcontent.not_mark_append (isMark_tagStart isWordName_section.2) (hcut ▸ h.seam) htag

/-- The matches of a page are the opening of the property section, those before it and those behind it. -/
lemma PropsSection.exists_match : ∃ title found, IsPropsTitle title ∧ found ∈ sectionPattern.findAll page ∧
    found.start = lead.length ∧ found.stop = (lead ++ opening).length ∧ found.firstOf [1, 2, 3] = some title ∧
    ∀ m ∈ sectionPattern.findAll page, m = found ∨ m.stop ≤ lead.length ∨
      (lead ++ (opening ++ content)).length ≤ m.start := by
  obtain ⟨title, htitle, hsection⟩ := h.starts
  obtain ⟨found, hfound, hstart, hstop, hvalue⟩ | ⟨m, hm, hbefore, hbehind⟩ :=
    mem_findAll_or_covered_of_sectionAt hsection
  · rw [← List.length_append] at hstop
    refine ⟨title, found, htitle, hfound, hstart, hstop, hvalue, fun m hm => ?_⟩
    by_cases hne : m = found
    · exact .inl hne
    have hapart : (sectionPattern.findAll page).Pairwise fun m m' => m.stop ≤ m'.start ∨ m'.stop ≤ m.start :=
      (pairwise_findAll sectionPattern page).imp .inl
    have : Std.Symm fun m m' : Match => m.stop ≤ m'.start ∨ m'.stop ≤ m.start := ⟨fun _ _ => Or.symm⟩
    rcases hapart.forall hm hfound hne with hbefore | hbehind
    · exact .inr (.inl (hstart ▸ hbefore))
    · obtain ⟨title', extent, -, hsection', -⟩ := sectionAt_of_mem_findAll hm
      exact .inr (.inr (h.le_of_sectionAt hcontent hsection' (hstop ▸ hbehind)))
  · obtain ⟨title', extent, -, hsection', hstop⟩ := sectionAt_of_mem_findAll hm
    have hends := (h.first _ _ _ hsection' hbefore).2
    omega

/-- The section that follows is listed. -/
lemma PropsSection.exists_next (htail : tail ≠ []) :
    ∃ s ∈ sections page, s.start = (lead ++ (opening ++ content)).length := by
  obtain ⟨title, extent, hsection⟩ := h.last.resolve_left htail
  rcases mem_findAll_or_covered_of_sectionAt hsection with
    ⟨found, hfound, hstart, -, hvalue⟩ | ⟨m, hm, hbefore, hbehind⟩
  · exact ⟨_, mem_sections_of_mem_findAll hfound hvalue, hstart⟩
  · exfalso
    obtain ⟨-, found, -, -, -, hstop, -, hmatches⟩ := h.exists_match hcontent
    simp only [List.length_append] at hstop hbefore hbehind hmatches
    rcases hmatches m hm with rfl | hm | hm <;> omega

lemma PropsSection.place_of_mem {s : Section} (hs : s ∈ sections page) :
    s.start ≤ lead.length ∨ (lead ++ (opening ++ content)).length ≤ s.start := by
  obtain ⟨-, found, -, -, hstart, -, -, hmatches⟩ := h.exists_match hcontent
  obtain ⟨m, hm, htitle⟩ := List.mem_filterMap.1 hs
  obtain ⟨_, -, rfl⟩ := Option.map_eq_some_iff.1 htitle
  obtain ⟨_, extent, -, -, hstop⟩ := sectionAt_of_mem_findAll hm
  rcases hmatches m hm with rfl | hbefore | hbehind
  · exact .inl hstart.le
  · exact .inl (by change m.start ≤ _; omega)
  · exact .inr hbehind

omit hcontent in
lemma PropsSection.length_lt : lead.length < (lead ++ (opening ++ content)).length := by
  obtain ⟨title, -, _, t, rest, -, -, rfl⟩ := h.starts
  simp

/-- Behind the property section the next one starts where its content ends, or nothing follows. -/
lemma PropsSection.exists_after {after : List Section} (hsorted : after.Pairwise fun s s' => s.start < s'.start)
    (hafter : ∀ s, s ∈ after ↔ s ∈ sections page ∧ lead.length < s.start) :
    after = [] ∧ tail = [] ∨
      ∃ next more, after = next :: more ∧ next.start = (lead ++ (opening ++ content)).length := by
  have hnext (htail : tail ≠ []) : ∃ s ∈ after, s.start = (lead ++ (opening ++ content)).length := by
    obtain ⟨s, hs, hplace⟩ := h.exists_next hcontent htail
    exact ⟨s, (hafter s).2 ⟨hs, hplace ▸ h.length_lt⟩, hplace⟩
  cases after with
  | nil =>
    refine .inl ⟨rfl, by_contra fun htail => ?_⟩
    obtain ⟨s, hs, -⟩ := hnext htail
    cases hs
  | cons next more =>
    obtain ⟨hmem, hbehind⟩ := (hafter next).1 (.head _)
    have hplace := (h.place_of_mem hcontent hmem).resolve_left hbehind.not_ge
    have htail : tail ≠ [] := by
      rintro rfl
      obtain ⟨extent, hsection⟩ := sectionAt_of_mem hmem
      obtain ⟨t, htext, -⟩ := hsection.tagStart
      rw [h.text, List.append_nil, List.drop_eq_nil_of_le hplace] at htext
      cases htext
    obtain ⟨s, hs, hstart⟩ := hnext htail
    refine .inr ⟨next, more, rfl, ?_⟩
    rcases List.mem_cons.1 hs with rfl | hs
    · exact hstart
    · exact absurd ((List.pairwise_cons.1 hsorted).1 s hs) (by omega)

/-- The property section is what is searched for the table. -/
theorem PropsSection.region? : region? isPropsTitle page = some (opening ++ content) := by
  obtain ⟨title, found, htitle, hfound, hstart, -, hvalue, -⟩ := h.exists_match hcontent
  obtain ⟨before, after, hsections⟩ := List.append_of_mem (mem_sections_of_mem_findAll hfound hvalue)
  have hpairwise := pairwise_sections page
  rw [hsections, hstart, List.pairwise_append, List.pairwise_cons] at hpairwise
  obtain ⟨-, ⟨hbehind, hsorted⟩, hbefore⟩ := hpairwise
  have hskip : ∀ s ∈ before, (!isPropsTitle s.title) = true := by
    intro s hs
    obtain ⟨extent, hsection⟩ := sectionAt_of_mem (hsections ▸ List.mem_append_left _ hs)
    rw [Bool.not_eq_true', ← Bool.not_eq_true, isPropsTitle_iff]
    exact (h.first _ _ _ hsection (hbefore s hs _ (.head _))).1
  have hafter (s : Section) : s ∈ after ↔ s ∈ sections page ∧ lead.length < s.start := by
    rw [hsections]
    refine ⟨fun hs => ⟨by simp [hs], hbehind s hs⟩, fun ⟨hs, hplace⟩ => ?_⟩
    rcases List.mem_append.1 hs with hs | hs
    · exact absurd (hbefore s hs _ (.head _)) hplace.not_gt
    · exact (List.mem_cons.1 hs).resolve_left fun hsame => absurd hplace (by rw [hsame]; exact hstart.not_gt)
  have hdrop : page.drop found.start = opening ++ content ++ tail := by
    rw [hstart, h.text, List.drop_left, List.append_assoc]
  rw [Demo.region?, hsections, List.dropWhile_append_of_pos hskip,
    List.dropWhile_cons_of_neg (by simpa using isPropsTitle_iff.2 htitle)]
  rcases h.exists_after hcontent hsorted hafter with ⟨rfl, rfl⟩ | ⟨next, more, rfl, hplace⟩
  · rw [List.append_nil] at hdrop
    exact congrArg some hdrop
  · have hlength : next.start - found.start = (opening ++ content).length := by
      rw [hplace, hstart, List.length_append, Nat.add_sub_cancel_left]
    simp only [hdrop, hlength, List.take_left]

end Region

/-! ## Cells -/

variable {mark : List Char → Prop} {quote : Char} {w x y z : List Char}

/-- Nothing in markup is taken for a tag that none of its inline tags is. -/
lemma MarkupOf.lacks (hmark : IsMark mark) (hinline : ∀ inside, IsInlineTag inside → ¬ mark (inside ++ ['>']))
    (h : MarkupOf t m) : Lacks mark m := by
  induction h with
  | nil => exact lacks_of_not_mem List.not_mem_nil
  | char _ _ ih => exact lacks_append_of_not_mem bracket_not_mem_escape ih
  | @inline inside t m hinside _ ih =>
    have htag : Lacks mark ('<' :: (inside ++ ['>'])) := by
      refine lacks_bracket ?_ (hinline inside hinside)
      simpa using fun hmem => (hinside.plain _ hmem).1 rfl
    have hsettled : Settled ('<' :: (inside ++ ['>'])) := by
      rw [← List.cons_append, settled_concat]
      exact ⟨⟨by decide, by decide⟩, by decide⟩
    have htext : '<' :: (inside ++ '>' :: m) = '<' :: (inside ++ ['>']) ++ m := by simp
    rw [htext]
    exact htag.append hmark ih (.inr hsettled)

/-- Nothing in a string expression is taken for a tag that does not start in its text. -/
lemma ExpressionOf.lacks (hmark : IsMark mark) (h : ExpressionOf t m) (ht : Lacks mark t) : Lacks mark m := by
  obtain ⟨quote, w, x, y, z, hquote, -, hw, hx, hy, hz, rfl⟩ := h
  have hspace {w : List Char} (hw : IsSpace w) : '<' ∉ w := not_mem_of_isSpace hw (by decide)
  have hseparates : (Separates quote ∧ quote ≠ '>') ∧ '<' ≠ quote := by
    unfold Separates
    rcases isQuoteMark_iff.1 hquote with rfl | rfl | rfl <;> decide
  have hbefore : '<' ∉ w ++ '\x7b' :: (x ++ [quote]) := by simp [hspace hw, hspace hx, hseparates.2]
  have hbehind : '<' ∉ quote :: (y ++ '\x7d' :: z) := by simp [hspace hy, hspace hz, hseparates.2]
  have htext : w ++ (expression x quote t y ++ z) =
      w ++ '\x7b' :: (x ++ [quote]) ++ (t ++ quote :: (y ++ '\x7d' :: z)) := by simp [expression]
  rw [htext]
  exact lacks_append_of_not_mem hbefore
    (ht.append hmark (lacks_of_not_mem hbehind) (seam_cons hseparates.1 t _))

lemma IsInlineTag.not_tagClose {inside name : List Char} (h : IsInlineTag inside) (hn : IsWordName name)
    (hne : inside ≠ '/' :: name) : ¬ TagClose name (inside ++ ['>']) := by
  rintro ⟨u, hu⟩
  have hsame : inside ++ ['>'] = '/' :: name ++ '>' :: u := by simpa using hu.symm
  have hname : '>' ∉ '/' :: name := by simpa using hn.not_mem (by decide)
  exact hne (append_cons_cancel (fun hmem => (h.plain _ hmem).2 rfl) hname hsame)

lemma IsInlineTag.not_section {inside : List Char} (h : IsInlineTag inside) :
    ¬ TagStart "Section".toList (inside ++ ['>']) := by
  rintro ⟨rest, htext, hends⟩
  obtain ⟨y, rfl⟩ := exists_append_of_not_mem htext (by decide)
  rw [List.append_assoc, List.append_cancel_left_eq] at htext
  exact h.opens y rfl ((wordEnds_append_cons (by decide)).1 (htext ▸ hends))

lemma TagFree.lacks_close {name : List Char} (h : TagFree t) (hn : IsWordName name) : Lacks (TagClose name) t := by
  rintro a b rfl ⟨u, rfl⟩
  exact h a ('/' :: name) u (List.cons_ne_nil _ _) (by simpa using hn.not_mem (by decide)) (by simp)

lemma isCell_markupCell : IsCell MarkupCell := by
  rintro text content ⟨hline, w, w', hw, hw', hmarkup⟩
  refine ⟨?_, ?_, ?_, ?_⟩
  · rw [plainText_of_markup hmarkup, squeeze_padded hw hw', hline]
  · exact hmarkup.lacks (isMark_tagClose isWordName_td.2) fun _ h => h.not_tagClose isWordName_td h.closes.1
  · exact hmarkup.lacks (isMark_tagClose isWordName_tr.2) fun _ h => h.not_tagClose isWordName_tr h.closes.2
  · exact hmarkup.lacks (isMark_tagStart isWordName_section.2) fun _ h => h.not_section

lemma isCell_stringCell : IsCell StringCell := by
  rintro text content ⟨hline, hexpression, htags, hentities, hsection⟩
  refine ⟨?_, ?_, ?_, ?_⟩
  · rw [plainText_of_expression hexpression htags hentities, hline]
  · exact hexpression.lacks (isMark_tagClose isWordName_td.2) (htags.lacks_close isWordName_td)
  · exact hexpression.lacks (isMark_tagClose isWordName_tr.2) (htags.lacks_close isWordName_tr)
  · exact hexpression.lacks (isMark_tagStart isWordName_section.2) hsection

/-! ## Pages with a table -/

def propsOpening : List Char := "<Section title=\"Props\"".toList

/-- In a page that starts with the property section, that section is the whole page. -/
lemma propsSection_of_opening (content : List Char) :
    PropsSection (propsOpening ++ content) [] propsOpening content [] where
  text := by simp
  starts := by
    refine ⟨"Props".toList, ⟨[], "Props".toList, [], isSpace_nil, isSpace_nil, by decide, rfl⟩, [' '],
      "title=\"Props\"".toList, content, rfl, ?_, rfl⟩
    refine ⟨rfl, .quoted (.inl rfl) (by decide), by decide, ?_, ?_, ?_⟩
    · rintro c ⟨⟩
      decide
    · have hhead : ("title=\"Props\"".toList ++ content).head? = some 't' := rfl
      rw [EdgeBetween, hhead]
      decide
    · rintro a b hab hb - title t rest ht htext
      obtain ⟨u, rfl⟩ : ∃ u, t = 't' :: u := by cases ht <;> exact ⟨_, rfl⟩
      obtain ⟨rfl, rfl⟩ : a = [] ∧ b = [' '] := by
        cases a with
        | nil => exact ⟨rfl, hab.symm⟩
        | cons d a => simp_all
      cases htext
  first _ _ _ _ hplace := absurd hplace (Nat.not_lt_zero _)
  last := .inl rfl

lemma lacks_tagStart {name : List Char} (h : ¬ '<' :: name <:+: t) : Lacks (TagStart name) t := by
  rintro a _ rfl ⟨rest, rfl, -⟩
  exact h ⟨a, rest, by simp⟩

lemma lacks_tagClose {name : List Char} (h : ¬ closeTag name <:+: t) : Lacks (TagClose name) t := by
  rintro a _ rfl ⟨rest, rfl⟩
  exact h ⟨a, rest, by simp [closeTag]⟩

/-- An element with nothing but its content. -/
def plainElement (name content : List Char) : List Char := openTag name [] ++ (content ++ closeTag name)

lemma markupOf_escape (h : '\x7b' ∉ t) : MarkupOf t (t.flatMap escape) := by
  induction t with
  | nil => exact .nil
  | cons c t ih =>
    rw [List.mem_cons, not_or] at h
    exact .char (Ne.symm h.1) (ih h.2)

lemma attributes_nil : Attributes [] := ⟨fun _ hc => (by cases hc), List.not_mem_nil, List.not_mem_nil⟩

lemma betweenCells_nil : BetweenCells [] :=
  ⟨lacks_of_not_mem List.not_mem_nil, lacks_of_not_mem List.not_mem_nil, lacks_of_not_mem List.not_mem_nil⟩

lemma betweenRows_nil : BetweenRows [] := ⟨lacks_of_not_mem List.not_mem_nil, lacks_of_not_mem List.not_mem_nil⟩

/-- Texts in cells, one behind the other. -/
lemma rowText_flatMap {cell : List Char → List Char → Prop} {write : List Char → List Char} {texts : List (List Char)}
    (h : ∀ t ∈ texts, cell t (write t)) :
    RowText cell texts (texts.flatMap fun t => plainElement "td".toList (write t)) := by
  induction texts with
  | nil => exact .outside betweenCells_nil
  | cons t texts ih =>
    obtain ⟨ht, htexts⟩ := List.forall_mem_cons.1 h
    have hrow := RowText.cell betweenCells_nil attributes_nil ht (ih htexts)
    simpa [plainElement] using hrow

/-- Rows of cells, one behind the other. -/
lemma tableText_flatMap {cell : List Char → List Char → Prop} {write : List Char → List Char} {rows : List PropertyRow}
    (h : ∀ row ∈ rows, row.name ≠ "" ∧ ∀ t ∈ row.texts, cell t (write t)) (ht : BetweenRows t) :
    TableText cell rows ((rows.flatMap fun row => plainElement "tr".toList
      (row.texts.flatMap fun t => plainElement "td".toList (write t))) ++ t) := by
  induction rows with
  | nil => exact .outside ht
  | cons row rows ih =>
    obtain ⟨⟨hname, htexts⟩, hrows⟩ := List.forall_mem_cons.1 h
    have htable := TableText.row betweenRows_nil attributes_nil hname (rowText_flatMap htexts) (ih hrows)
    simpa [plainElement] using htable

/-- Behind the opening of a section, the rows as a table with a header. -/
def tableRest (write : List Char → List Char) (rows : List PropertyRow) : List Char :=
  "><table><tr><th>Prop</th></tr>".toList ++ ((rows.flatMap fun row => plainElement "tr".toList
    (row.texts.flatMap fun t => plainElement "td".toList (write t))) ++ "</table></Section>".toList)

lemma tableText_tableRest {cell : List Char → List Char → Prop} {write : List Char → List Char}
    {rows : List PropertyRow}
    (h : ∀ row ∈ rows, row.name ≠ "" ∧ ∀ t ∈ row.texts, cell t (write t)) :
    TableText cell rows (tableRest write rows) := by
  have hheader : BetweenCells "<th>Prop</th>".toList :=
    ⟨lacks_tagStart (by decide), lacks_tagClose (by decide), lacks_tagStart (by decide)⟩
  have hend : BetweenRows "</table></Section>".toList := ⟨lacks_tagStart (by decide), lacks_tagStart (by decide)⟩
  have hlead : BetweenRows "><table>".toList := ⟨lacks_tagStart (by decide), lacks_tagStart (by decide)⟩
  exact .skipped hlead attributes_nil (.inl (by decide)) (.outside hheader) (tableText_flatMap h hend)

lemma markupCell_escape (hline : IsLine t) (ht : '\x7b' ∉ t) : MarkupCell t (t.flatMap escape) :=
  ⟨hline, [], [], isSpace_nil, isSpace_nil, by simpa using markupOf_escape ht⟩

def escapedRows : List PropertyRow := [⟨"size", "\"sm\" | \"lg\"", "-", "&lt;, </td> or <Section title=\"Props\">"⟩]

lemma stringCell_expression (hline : IsLine t) (hquote : '"' ∉ t) (htags : TagFree t) (hentities : EntityFree t)
    (hsection : Lacks (TagStart "Section".toList) t) : StringCell t (expression [] '"' t []) :=
  ⟨hline, ⟨'"', [], [], [], [], by decide, hquote, isSpace_nil, isSpace_nil, isSpace_nil, isSpace_nil, by simp⟩, htags,
    hentities, hsection⟩

def expressionRows : List PropertyRow := [⟨"size", "\x7b min: number \x7d & Limits", "-", "x < 3"⟩]

lemma tagFree_of_not_mem (h : '>' ∉ t) : TagFree t := by
  rintro a b c - - rfl
  simp at h

/-! ## Reading the property section -/

lemma SectionAt.settled (h : SectionAt page place title extent) : Settled extent := by
  obtain ⟨lead, t, rest, -, hsection, rfl⟩ := h
  have hlast : ∃ u c, t = u ++ [c] ∧ Separates c ∧ c ≠ '<' := by
    unfold Separates
    cases hsection.holds with
    | @quoted quote hquote =>
      refine ⟨"title=".toList ++ quote :: title, quote, by simp, ?_⟩
      rcases hquote with rfl | rfl <;> decide
    | @braced w o c w' =>
      exact ⟨"title=".toList ++ '\x7b' :: (w ++ o :: (title ++ c :: w')), '\x7d', by simp, by decide⟩
  obtain ⟨u, c, rfl, hc⟩ := hlast
  rw [← List.append_assoc, ← List.append_assoc, settled_concat]
  exact hc

lemma propertyRows_of_table {cell : List Char → List Char → Prop} {rows : List PropertyRow} (hcell : IsCell cell)
    (h : PropsSection page lead opening content tail) (hopening : Lacks (TagStart "tr".toList) opening)
    (htable : TableText cell rows content) (hne : rows ≠ []) : propertyRows page = rows := by
  obtain ⟨title, -, hsection⟩ := h.starts
  have hrows := elementRows_of_table hcell htable hopening hsection.settled
  rw [propertyRows, h.region? (htable.lacks_section hcell)]
  simp only [hrows, List.isEmpty_iff, hne, if_false]

/-- A table of the property section with texts as markup is read as it was written, whatever the texts look like. -/
theorem propertyRows_of_markup {rows : List PropertyRow} (h : PropsSection page lead opening content tail)
    (hopening : Lacks (TagStart "tr".toList) opening) (htable : TableText MarkupCell rows content) (hne : rows ≠ []) :
    propertyRows page = rows :=
  propertyRows_of_table isCell_markupCell h hopening htable hne

theorem propertyRows_of_markup_escaped : escapedRows ≠ [] ∧
    propertyRows (propsOpening ++ tableRest (List.flatMap escape) escapedRows) = escapedRows := by
  have hcells : ∀ row ∈ escapedRows, row.name ≠ "" ∧ ∀ t ∈ row.texts, MarkupCell t (t.flatMap escape) := by
    have hall : ∀ row ∈ escapedRows, row.name ≠ "" ∧ ∀ t ∈ row.texts, squeeze t = t ∧ '\x7b' ∉ t := by decide +kernel
    exact fun row hrow =>
      ⟨(hall row hrow).1, fun t ht => markupCell_escape ((hall row hrow).2 t ht).1 ((hall row hrow).2 t ht).2⟩
  have hne : escapedRows ≠ [] := List.cons_ne_nil _ _
  exact ⟨hne, propertyRows_of_markup (propsSection_of_opening _) (lacks_tagStart (by decide))
    (tableText_tableRest hcells) hne⟩

/-- The rows of a section are not found if its title stands behind an arrow, and a tag with an angle bracket in a text
leaves its end in the cell. -/
theorem propertyRows_behind_brackets :
    propertyRows ("<Section icon=\x7b() => 1\x7d title=\"Props\">".toList ++
        "<tr><td>size</td><td>number</td><td>-</td><td>Size</td></tr>".toList) = [] ∧
      propertyRows ("<Section title=\"Props\">".toList ++
        "<tr><td><code title=\"a > b\">size</code></td><td>number</td><td>-</td><td>Size</td></tr>".toList) =
          [⟨"b\">size", "number", "-", "Size"⟩] :=
  ⟨by cbv, by cbv⟩

/-- So is a table with texts in string expressions, where nothing in them looks like a tag or an entity. Other texts in
string expressions are not read back. -/
theorem propertyRows_of_expressions {rows : List PropertyRow} (h : PropsSection page lead opening content tail)
    (hopening : Lacks (TagStart "tr".toList) opening)
    (htable : TableText (fun text content => StringCell text content ∨ MarkupCell text content) rows content)
    (hne : rows ≠ []) : propertyRows page = rows ∧ ∀ text content, IsLine text → ExpressionOf text content →
      (plainText content = text ↔ TagFree text ∧ EntityFree text) := by
  have hcell : IsCell fun text content => StringCell text content ∨ MarkupCell text content := fun _ _ htext =>
    htext.elim (isCell_stringCell _ _) (isCell_markupCell _ _)
  exact ⟨propertyRows_of_table hcell h hopening htable hne, fun _ _ hline htext => plainText_expression_iff htext hline⟩

theorem propertyRows_of_expressions_braced : expressionRows ≠ [] ∧
    propertyRows (propsOpening ++ tableRest (fun t => expression [] '"' t []) expressionRows) = expressionRows := by
  have hcells : ∀ row ∈ expressionRows, row.name ≠ "" ∧
      ∀ t ∈ row.texts, StringCell t (expression [] '"' t []) ∨ MarkupCell t (expression [] '"' t []) := by
    have hall : ∀ row ∈ expressionRows, row.name ≠ "" ∧ ∀ t ∈ row.texts, squeeze t = t ∧ '"' ∉ t ∧ '>' ∉ t ∧
        (∀ c ∈ specials, ¬ escape c <:+: t) ∧ ¬ '<' :: "Section".toList <:+: t := by decide +kernel
    intro row hrow
    refine ⟨(hall row hrow).1, fun t ht => .inl ?_⟩
    obtain ⟨hline, hquote, hbracket, hentities, hsection⟩ := (hall row hrow).2 t ht
    exact stringCell_expression hline hquote (tagFree_of_not_mem hbracket) hentities (lacks_tagStart hsection)
  have hne : expressionRows ≠ [] := List.cons_ne_nil _ _
  exact ⟨hne, (propertyRows_of_expressions (propsSection_of_opening _) (lacks_tagStart (by decide))
    (tableText_tableRest hcells) hne).1⟩

/-- A text that looks like a tag or an entity is not read as it was written, although it stands in a string. -/
theorem propertyRows_of_type_arguments :
    propertyRows (propsOpening ++ ">".toList ++
        "<tr><td>rows</td><td>\x7b\"Array<string>\"\x7d</td><td>-</td><td>\x7b\"A &amp; B\"\x7d</td></tr>".toList) =
      [⟨"rows", "Array", "-", "A & B"⟩] := by
  cbv

end UiCatalog.Demo
