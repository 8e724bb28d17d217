import UiCatalog.Proofs.PropsSection

/-!
# Tables with bars

A table with bars is read line by line: the cells of a line stand between its bars. The header and the rule under it are
told from the rows by what they hold, so a row that is called like the title of the first column is taken for a header.
-/
namespace UiCatalog.Demo

open Text Pattern Code

/-! ## Texts -/

/-- A text that stands between bars as it is. -/
structure IsBarText (t : List Char) : Prop where
  line : IsLine t
  plain : ∀ c ∈ t, c ∉ ['|', '\x60', '\x7b', '<', '&']

def barLine (cells : List (List Char)) : List Char := '|' :: (join ['|'] cells ++ ['|'])

def padded (t : List Char) : List Char := ' ' :: (t ++ [' '])

/-- A row that can be written with bars: it has a name, and not only dashes and colons. -/
structure IsBarRow (row : PropertyRow) : Prop where
  named : row.name ≠ ""
  texts : ∀ t ∈ row.texts, IsBarText t
  drawn : ∃ t ∈ row.texts, ∃ c ∈ t, c ≠ '-' ∧ c ≠ ':'

/-- A cell of the rule under the header: dashes, maybe with colons, with any white space around them. -/
def IsDashes (cell : List Char) : Prop :=
  ∃ w dashes w', IsSpace w ∧ IsSpace w' ∧ dashes ≠ [] ∧ (∀ c ∈ dashes, c = '-' ∨ c = ':') ∧ cell = w ++ (dashes ++ w')

/-- The titles of the columns. -/
def titleRow : PropertyRow := ⟨"Prop", "Type", "Default", "Description"⟩

/-- Lines with the rows of a table among them, a header, a rule, and lines that start with no bar. -/
inductive BarLines : List PropertyRow → List (List Char) → Prop
  | nil : BarLines [] []
  | other {line rows lines} : (∀ w rest, IsSpace w → line ≠ w ++ '|' :: rest) → BarLines rows lines →
      BarLines rows (line :: lines)
  | header {w w' rows lines} : IsSpace w → IsSpace w' → BarLines rows lines →
      BarLines rows ((w ++ (barLine (titleRow.texts.map padded) ++ w')) :: lines)
  | rule {w cells w' rows lines} : IsSpace w → cells ≠ [] → (∀ cell ∈ cells, IsDashes cell) → IsSpace w' →
      BarLines rows lines → BarLines rows ((w ++ (barLine cells ++ w')) :: lines)
  | row {w row w' rows lines} : IsSpace w → IsBarRow row → IsSpace w' → BarLines rows lines →
      BarLines (row :: rows) ((w ++ (barLine (row.texts.map padded) ++ w')) :: lines)

/-- The name is taken for the title of the first column. -/
def IsColumnTitle (name : String) : Prop := lower name.toList = "prop".toList ∨ lower name.toList = "name".toList

instance : DecidablePred IsColumnTitle := fun name =>
  inferInstanceAs (Decidable (lower name.toList = "prop".toList ∨ lower name.toList = "name".toList))

variable {c : Char} {t w w' line cell : List Char} {cells ls : List (List Char)} {row : PropertyRow}
  {rows : List PropertyRow}

/-! ## The cells of a line -/

lemma dropWhile_of_head (h : t.head? ≠ some c) : t.dropWhile (· == c) = t := by
  cases t with
  | nil => rfl
  | cons d t => exact List.dropWhile_cons_of_neg (by simpa using h)

lemma trimChar_of_ends (hhead : t.head? ≠ some c) (hlast : t.getLast? ≠ some c) : trimChar c t = t := by
  rw [trimChar, dropWhile_of_head hhead, dropWhile_of_head (by rwa [List.head?_reverse]), List.reverse_reverse]

lemma trimChar_enclosed (hhead : t.head? ≠ some c) (hlast : t.getLast? ≠ some c) :
    trimChar c (c :: (t ++ [c])) = t := by
  cases t with
  | nil => simp [trimChar]
  | cons d t =>
    have hfront : (c :: (d :: t ++ [c])).dropWhile (· == c) = d :: t ++ [c] := by
      rw [List.dropWhile_cons_of_pos (by simp), dropWhile_of_head (by simpa using hhead)]
    have hback : ((d :: t ++ [c]).reverse).dropWhile (· == c) = (d :: t).reverse := by
      rw [List.reverse_concat, List.dropWhile_cons_of_pos (by simp),
        dropWhile_of_head (by rwa [List.head?_reverse])]
    rw [trimChar, hfront, hback, List.reverse_reverse]

/-- A cell without what stands around its text. -/
def cellText (cell : List Char) : List Char := plainText (trimChar '\x60' (trim cell))

/-- The cells of a line are what stands between its bars. -/
lemma barCells_barLine (hne : cells ≠ []) (hcells : ∀ cell ∈ cells, cell ≠ [] ∧ '|' ∉ cell) :
    barCells (barLine cells) = cells.map cellText := by
  have hhead : (join ['|'] cells).head? ≠ some '|' := by
    obtain ⟨cell, rest, rfl⟩ := List.exists_cons_of_ne_nil hne
    obtain ⟨hcell, hbar⟩ := hcells cell (.head _)
    have hjoin := join_append_cons ['|'] cell [] rest
    rw [List.nil_append, List.flatMap_nil, List.nil_append] at hjoin
    rw [hjoin, List.head?_append_of_ne_nil _ hcell]
    exact fun hfirst => hbar (List.mem_of_head? hfirst)
  have hlast : (join ['|'] cells).getLast? ≠ some '|' := by
    obtain rfl | ⟨rest, cell, rfl⟩ := List.eq_nil_or_concat cells
    · exact absurd rfl hne
    · rw [List.concat_eq_append] at hcells ⊢
      obtain ⟨hcell, hbar⟩ := hcells cell (by simp)
      rw [join_append_cons, List.flatMap_nil, List.append_nil, List.getLast?_append_of_ne_nil _ hcell]
      exact fun hend => hbar (List.mem_of_getLast? hend)
  rw [barCells, barLine, trimChar_enclosed hhead hlast, splitAt_join hne fun cell hcell => (hcells cell hcell).2]
  rfl

/-- White space around the text of a cell goes. -/
lemma cellText_spaced (hw : IsSpace w) (hw' : IsSpace w') (ht : ∀ c ∈ t, c ∉ ['|', '\x60', '\x7b', '<', '&']) :
    cellText (w ++ (t ++ w')) = squeeze t := by
  obtain ⟨v, v', -, -, htrim⟩ := exists_trim t
  have hnot {c : Char} (hc : c ∈ ['|', '\x60', '\x7b', '<', '&']) : c ∉ trim t := fun hmem =>
    ht c (by rw [htrim]; simp [hmem]) hc
  have hquotes : trimChar '\x60' (trim t) = trim t :=
    trimChar_of_ends (fun h => hnot (by simp) (List.mem_of_head? h)) fun h => hnot (by simp) (List.mem_of_getLast? h)
  rw [cellText, trim_space_append hw, trim_append_space hw', hquotes,
    plainText_of_plain (hnot (by simp)) (hnot (by simp)) (hnot (by simp)), squeeze_trim]

lemma cellText_padded (h : IsBarText t) : cellText (padded t) = t := by
  have hspace : IsSpace [' '] := by decide
  have hread := cellText_spaced hspace hspace h.plain
  rw [h.line] at hread
  exact hread

lemma cellText_dashes (h : IsDashes cell) : ∀ c ∈ cellText cell, c = '-' ∨ c = ':' := by
  obtain ⟨w, dashes, w', hw, hw', hne, hdashes, rfl⟩ := h
  have hrun : IsRun dashes := by
    refine ⟨hne, fun c hc => ?_⟩
    rcases hdashes c hc with rfl | rfl <;> decide
  rw [cellText_spaced hw hw' fun c hc => ?_, squeeze_of_isRun hrun]
  · exact hdashes
  · rcases hdashes c hc with rfl | rfl <;> decide

/-! ## Lines that count -/

/-- What a line with bars is read as. -/
def barRow? (line : List Char) : Option PropertyRow :=
  if isRule (barCells line) || isHeader (barCells line) then none else row? (barCells line)

/-- The lines with bars, without the white space around them. -/
def barLinesOf (ls : List (List Char)) : List (List Char) := (ls.map trim).filter fun line => line.head? == some '|'

lemma barRows_eq (t : List Char) : barRows t = (barLinesOf (splitAt '\n' t)).filterMap barRow? := by
  rw [barRows, filter_map_lines trim_dropReturn rfl]
  rfl

lemma barRow?_row (h : IsBarRow row) :
    barRow? (barLine (row.texts.map padded)) = if IsColumnTitle row.name then none else some row := by
  have hne : row.texts.map padded ≠ [] := List.cons_ne_nil _ _
  have hpadded : ∀ cell ∈ row.texts.map padded, cell ≠ [] ∧ '|' ∉ cell := by
    intro cell hcell
    obtain ⟨t, ht, rfl⟩ := List.mem_map.1 hcell
    have hbar : '|' ∉ t := fun hmem => (h.texts t ht).plain _ hmem (.head _)
    exact ⟨List.cons_ne_nil _ _, by simp [padded, hbar]⟩
  have hcells : barCells (barLine (row.texts.map padded)) = row.texts := by
    have hread : ∀ t ∈ row.texts, (cellText ∘ padded) t = id t := by
      intro t ht
      rw [Function.comp_apply, cellText_padded (h.texts t ht), id]
    rw [barCells_barLine hne hpadded, List.map_map, List.map_congr_left hread, List.map_id]
  have hrule : isRule row.texts = false := by
    obtain ⟨t, ht, c, hc, hdash, hcolon⟩ := h.drawn
    refine List.all_eq_false.2 ⟨t, ht, ?_⟩
    simp only [List.all_eq_true, not_forall]
    exact ⟨c, hc, by simp [hdash, hcolon]⟩
  have hheader : isHeader row.texts = true ↔ IsColumnTitle row.name := by
    simp [isHeader, PropertyRow.texts, IsColumnTitle]
  rw [barRow?, hcells, hrule, Bool.false_or, row?_texts h.named]
  simp only [hheader]

/-- The titles of the columns are a row that is called like the title of the first column. -/
lemma barRow?_header : barRow? (barLine (titleRow.texts.map padded)) = none := by
  have htitles : ∀ t ∈ titleRow.texts, squeeze t = t ∧ ∀ c ∈ t, c ∉ ['|', '\x60', '\x7b', '<', '&'] := by decide +kernel
  have hrow : IsBarRow titleRow :=
    ⟨by decide, fun t ht => ⟨(htitles t ht).1, (htitles t ht).2⟩, _, .head _, 'P', by decide, by decide, by decide⟩
  rw [barRow?_row hrow, if_pos (by decide +kernel)]

lemma barRow?_rule (hne : cells ≠ []) (h : ∀ cell ∈ cells, IsDashes cell) : barRow? (barLine cells) = none := by
  have hcells : ∀ cell ∈ cells, cell ≠ [] ∧ '|' ∉ cell := by
    intro cell hcell
    obtain ⟨w, dashes, w', hw, hw', hdashes, hall, rfl⟩ := h cell hcell
    have hbar : '|' ∉ dashes := fun hmem => by rcases hall _ hmem with hc | hc <;> cases hc
    refine ⟨by simp [hdashes], ?_⟩
    simp [not_mem_of_isSpace hw (c := '|') (by decide), not_mem_of_isSpace hw' (c := '|') (by decide), hbar]
  have hrule : isRule (cells.map cellText) = true := by
    simp only [isRule, List.all_eq_true, List.mem_map, Bool.or_eq_true, beq_iff_eq]
    rintro _ ⟨cell, hcell, rfl⟩
    exact cellText_dashes (h cell hcell)
  rw [barRow?, barCells_barLine hne hcells, hrule, Bool.true_or, if_pos rfl]

lemma barLinesOf_cons_barLine (hw : IsSpace w) (hw' : IsSpace w') :
    barLinesOf ((w ++ (barLine cells ++ w')) :: ls) = barLine cells :: barLinesOf ls := by
  have htrim : trim (w ++ (barLine cells ++ w')) = barLine cells := by
    rw [trim_space_append hw, trim_append_space hw', barLine, trim_enclosed (by decide) (by decide)]
  rw [barLinesOf, List.map_cons, htrim, List.filter_cons_of_pos rfl]
  rfl

lemma barLinesOf_cons_other (h : ∀ w rest, IsSpace w → line ≠ w ++ '|' :: rest) :
    barLinesOf (line :: ls) = barLinesOf ls := by
  obtain ⟨w, hw, hstart⟩ := exists_space_of_trimStart line
  obtain ⟨w', -, hend⟩ := exists_space_of_trimEnd (trimStart line)
  have hhead : (trim line).head? ≠ some '|' := by
    intro hbar
    obtain ⟨rest, hrest⟩ := List.head?_eq_some_iff.1 hbar
    refine h w (rest ++ w') hw (hstart.trans ?_)
    rw [← trim, hrest] at hend
    rw [hend, List.cons_append]
  rw [barLinesOf, List.map_cons, List.filter_cons_of_neg (by simpa using hhead)]
  rfl

/-- The rows between bars are read but for those that are taken for a header. -/
lemma filterMap_barLines (h : BarLines rows ls) :
    (barLinesOf ls).filterMap barRow? = rows.filter fun row => ¬ IsColumnTitle row.name := by
  induction h with
  | nil => rfl
  | other hline _ ih => rw [barLinesOf_cons_other hline, ih]
  | header hw hw' _ ih => rw [barLinesOf_cons_barLine hw hw', List.filterMap_cons_none barRow?_header, ih]
  | rule hw hne hcells hw' _ ih =>
    rw [barLinesOf_cons_barLine hw hw', List.filterMap_cons_none (barRow?_rule hne hcells), ih]
  | @row w row w' rows lines hw hrow hw' _ ih =>
    rw [barLinesOf_cons_barLine hw hw', List.filterMap_cons, barRow?_row hrow, ih, List.filter_cons]
    by_cases htitle : IsColumnTitle row.name <;> simp [htitle]

lemma elementRows_eq_nil (h : Lacks (TagStart "tr".toList) t) : elementRows t = [] := by
  have hnone := findAllFrom_of_holding isWordName_tr (.outside h) none 0
  rw [elementRows, findAll, List.map_eq_nil_iff.1 hnone, List.filterMap_nil]

lemma other_of_head (hc : isBlank c = false) (hbar : c ≠ '|') (t : List Char) :
    ∀ w rest, IsSpace w → c :: t ≠ w ++ '|' :: rest := by
  rintro w rest hw htext
  cases w with
  | nil => exact hbar (List.cons.inj htext).1
  | cons d w =>
    obtain rfl := (List.cons.inj htext).1
    simp [hw c (.head _)] at hc

/-- The lines of a page that starts with the property section. -/
def barPage (rows : List PropertyRow) : List (List Char) :=
  (propsOpening ++ ['>']) :: barLine (titleRow.texts.map padded) :: "|---|:---|---|---|".toList ::
    (rows.map fun row => barLine (row.texts.map padded))

lemma barLines_barPage (h : ∀ row ∈ rows, IsBarRow row) : BarLines rows (barPage rows) := by
  have hline {row : PropertyRow} : barLine (row.texts.map padded) = [] ++ (barLine (row.texts.map padded) ++ []) := by
    simp
  have hrows : BarLines rows (rows.map fun row => barLine (row.texts.map padded)) := by
    induction rows with
    | nil => exact .nil
    | cons row rows ih =>
      obtain ⟨hrow, hrows⟩ := List.forall_mem_cons.1 h
      rw [List.map_cons, hline]
      exact .row isSpace_nil hrow isSpace_nil (ih hrows)
  have hdashes : ∀ cell ∈ ["---".toList, ":---".toList, "---".toList, "---".toList], IsDashes cell := by
    intro cell hcell
    refine ⟨[], cell, [], isSpace_nil, isSpace_nil, ?_, ?_, by simp⟩
    · revert cell
      decide
    · revert cell
      decide
  have hrule : BarLines rows ("|---|:---|---|---|".toList :: rows.map fun row => barLine (row.texts.map padded)) :=
    @BarLines.rule [] _ [] _ _ isSpace_nil (List.cons_ne_nil _ _) hdashes isSpace_nil hrows
  refine .other (other_of_head (by decide) (by decide) _) ?_
  rw [hline]
  exact .header isSpace_nil isSpace_nil hrule

def plainRows : List PropertyRow := [⟨"size", "'sm', 'lg'", "-", ""⟩, ⟨"names", "string[]", ":", "-"⟩]

lemma isBarRow_plainRows : ∀ row ∈ plainRows, IsBarRow row := by
  have htexts : ∀ row ∈ plainRows, ∀ t ∈ row.texts, squeeze t = t ∧ ∀ c ∈ t, c ∉ ['|', '\x60', '\x7b', '<', '&'] := by
    decide +kernel
  have hnames : ∀ row ∈ plainRows, row.name ≠ "" ∧ ∃ c ∈ row.name.toList, c ≠ '-' ∧ c ≠ ':' := by simp [plainRows]
  intro row hrow
  obtain ⟨hnamed, hdrawn⟩ := hnames row hrow
  exact ⟨hnamed, fun t ht => ⟨(htexts row hrow t ht).1, (htexts row hrow t ht).2⟩, _, .head _, hdrawn⟩

/-- A table with bars in the property section is read as it was written, but for rows that are called like the title of
the first column. -/
theorem propertyRows_of_bars {page lead opening content tail : List Char}
    (h : PropsSection page lead opening content tail) (hsection : Lacks (TagStart "Section".toList) content)
    (helements : Lacks (TagStart "tr".toList) (opening ++ content)) (htext : opening ++ content = join ['\n'] ls)
    (hls : ∀ line ∈ ls, '\n' ∉ line) (htable : BarLines rows ls) :
    propertyRows page = rows.filter fun row => ¬ IsColumnTitle row.name := by
  have hbars : barRows (opening ++ content) = rows.filter fun row => ¬ IsColumnTitle row.name := by
    rw [barRows_eq, htext, ← filterMap_barLines htable]
    by_cases hne : ls = []
    · subst hne
      rfl
    · rw [splitAt_join hne hls]
  rw [propertyRows, h.region? hsection]
  simp only [elementRows_eq_nil helements, List.isEmpty_nil, if_true, hbars]

theorem propertyRows_of_bars_plain :
    propertyRows (join ['\n'] (barPage plainRows)) = plainRows := by
  have hcontent : join ['\n'] (barPage plainRows) = propsOpening ++ (join ['\n'] (barPage plainRows)).drop 22 := by
    decide +kernel
  have hsection : ¬ '<' :: "Section".toList <:+: (join ['\n'] (barPage plainRows)).drop 22 := by decide +kernel
  have helements : ¬ '<' :: "tr".toList <:+: join ['\n'] (barPage plainRows) := by decide +kernel
  have hlines : ∀ line ∈ barPage plainRows, '\n' ∉ line := by decide +kernel
  have htitles : (plainRows.filter fun row => ¬ IsColumnTitle row.name) = plainRows := by decide +kernel
  have hread := propertyRows_of_bars (propsSection_of_opening _) (lacks_tagStart hsection)
    (hcontent ▸ lacks_tagStart helements) hcontent.symm hlines (barLines_barPage isBarRow_plainRows)
  rwa [← hcontent, htitles] at hread

/-- A property that is called like the title of the first column is lost. -/
theorem propertyRows_of_bars_named :
    propertyRows (join ['\n'] (barPage [⟨"name", "string", "-", "Field"⟩, ⟨"size", "number", "-", "Size"⟩])) =
      [⟨"size", "number", "-", "Size"⟩] := by
  cbv

end UiCatalog.Demo
