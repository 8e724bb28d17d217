import Mathlib.Data.List.Forall2
import UiCatalog.Proofs.DemoMerge

/-!
# A demo page only fills gaps

The rows of a property table go to the properties of their names: a property takes its own rows, and what is
left of the table goes on to the next one. What is left at the end is added. Everything about a whole table is
proved along this order.
-/
namespace UiCatalog.Descriptor

open Text Demo

/-- A property after it has met a row, which counts only when it has the same name. -/
def describeBy (p : Property) (row : PropertyRow) : Property :=
  if row.name = p.name then describe row.description p else p

/-- A property after it has met all rows of a table. -/
def described (rows : List PropertyRow) (p : Property) : Property := rows.foldl describeBy p

/-- The rows that describe another property. -/
def others (name : String) (rows : List PropertyRow) : List PropertyRow := rows.filter (·.name != name)

/-- A table leaves `p` as `q`: at most the description differs, and only where it was blank. -/
structure KeptAs (p q : Property) : Prop where
  frame : q = { p with description := q.description }
  description : isBlankString p.description = false → q.description = p.description

/-- The property `p` was added for `row`; later rows may have given the description, if it was blank. -/
structure AddedFor (row : PropertyRow) (p : Property) : Prop where
  name : p.name = row.name
  type : p.type = row.type
  required : p.required = false
  default? : p.default? =
    if trim row.default.toList = [] ∨ trim row.default.toList = ['-'] then none else some row.default
  description : isBlankString row.description = false → p.description = row.description

variable {p q : Property} {ps : List Property} {row : PropertyRow} {rows : List PropertyRow}

/-! ## One property and its rows -/

lemma describe_of_blank {text : String} (h : isBlankString p.description = true) :
    describe text p = { p with description := text } := by
  simp [describe, h]

lemma keptAs_refl (p : Property) : KeptAs p p := ⟨rfl, fun _ => rfl⟩

lemma KeptAs.trans {r : Property} (hpq : KeptAs p q) (hqr : KeptAs q r) : KeptAs p r := by
  refine ⟨?_, fun hp => ?_⟩
  · rw [hqr.frame, hpq.frame]
  · have hq : q.description = p.description := hpq.description hp
    rw [hqr.description (hq ▸ hp), hq]

lemma keptAs_describeBy (p : Property) (row : PropertyRow) : KeptAs p (describeBy p row) := by
  rw [describeBy, describe]
  split_ifs with _ hb
  · exact ⟨rfl, fun hp => absurd hb (by simp [hp])⟩
  · exact keptAs_refl p
  · exact keptAs_refl p

lemma keptAs_described (rows : List PropertyRow) (p : Property) : KeptAs p (described rows p) :=
  List.foldlRecOn (motive := KeptAs p) rows describeBy (keptAs_refl p)
    fun q hq row _ => hq.trans (keptAs_describeBy q row)

lemma KeptAs.name (h : KeptAs p q) : q.name = p.name := by rw [h.frame]

@[simp] lemma name_described (rows : List PropertyRow) (p : Property) : (described rows p).name = p.name :=
  (keptAs_described rows p).name

lemma described_of_not_blank (h : isBlankString p.description = false) : described rows p = p := by
  have hk := keptAs_described rows p
  rw [hk.frame, hk.description h]

/-- What is blank in the end was blank all the time. -/
lemma blank_of_blank_described (h : isBlankString (described rows p).description = true) :
    isBlankString p.description = true := by
  by_contra hp
  rw [Bool.not_eq_true] at hp
  rw [described_of_not_blank hp, hp] at h
  simp at h

lemma described_cons (row : PropertyRow) (rows : List PropertyRow) (p : Property) :
    described (row :: rows) p = described rows (describeBy p row) := rfl

/-- A description stays blank only where all rows of the name are blank too. -/
lemma blank_row_of_blank_described (h : isBlankString (described rows p).description = true)
    (hrow : row ∈ rows) (hn : row.name = p.name) : isBlankString row.description = true := by
  induction rows generalizing p with
  | nil => simp at hrow
  | cons r rows ih =>
    rw [described_cons] at h
    rcases List.mem_cons.mp hrow with rfl | hm
    · have hb := blank_of_blank_described h
      rw [describeBy, if_pos hn, describe] at hb
      split_ifs at hb with hp
      · exact hb
      · exact absurd hb hp
    · exact ih h hm (hn.trans (keptAs_describeBy p r).name.symm)

/-- The same rows change nothing the second time. A row with a blank description does write itself over a blank
one, but the last such row wins both times. -/
lemma described_described (rows : List PropertyRow) (p : Property) :
    described rows (described rows p) = described rows p := by
  induction rows generalizing p with
  | nil => rfl
  | cons row rows ih =>
    have hk : KeptAs p (described (row :: rows) p) := keptAs_described _ _
    cases hb : isBlankString (described (row :: rows) p).description with
    | false => exact described_of_not_blank hb
    | true =>
      have hagain : describeBy (described (row :: rows) p) row = if row.name = p.name then describeBy p row
          else described (row :: rows) p := by
        by_cases hn : row.name = p.name
        · have hp := blank_of_blank_described hb
          rw [if_pos hn, describeBy, describeBy, hk.name, if_pos hn, if_pos hn, describe_of_blank hb,
            describe_of_blank hp, hk.frame]
        · rw [if_neg hn, describeBy, hk.name, if_neg hn]
      rw [described_cons row rows (described (row :: rows) p), hagain]
      split_ifs with hn
      · rfl
      · rw [described_cons, describeBy, if_neg hn, ih]

lemma addedFor_of_keptAs (h : KeptAs (ofRow row) p) : AddedFor row p where
  name := h.name
  type := by rw [h.frame]; rfl
  required := by rw [h.frame]; rfl
  default? := by rw [h.frame]; simp [ofRow, rowDefault?]
  description := h.description

lemma describeBy_ofRow (row : PropertyRow) : describeBy (ofRow row) row = ofRow row := by
  rw [describeBy, describe]
  split_ifs <;> rfl

/-! ## Whole tables -/

lemma mergeRow_cons (p : Property) (ps : List Property) (row : PropertyRow) :
    mergeRow (p :: ps) row =
      if row.name = p.name then describeBy p row :: ps else p :: mergeRow ps row := by
  by_cases hn : row.name = p.name
  · simp [mergeRow, updateFirst, describeBy, hn]
  · have hp : p.name ≠ row.name := fun h => hn h.symm
    simp only [mergeRow, List.any_cons, beq_eq_false_iff_ne.mpr hp, Bool.false_or, updateFirst, hp, hn,
      if_false]
    split_ifs <;> rfl

/-- The first property takes the rows of its name, and the others go on. -/
lemma mergeRows_cons (rows : List PropertyRow) (p : Property) (ps : List Property) :
    rows.foldl mergeRow (p :: ps) = described rows p :: (others p.name rows).foldl mergeRow ps := by
  induction rows generalizing p ps with
  | nil => rfl
  | cons row rows ih =>
    rw [List.foldl_cons, mergeRow_cons, others, List.filter_cons]
    by_cases hn : row.name = p.name
    · have hname := (keptAs_describeBy p row).name
      simp [hn, ih, hname, others, described_cons]
    · have hdescribe : describeBy p row = p := by rw [describeBy, if_neg hn]
      simp [hn, ih, hdescribe, others, described_cons]

/-- Where no property is left, a row adds its own, which then takes the rows of its name. -/
lemma mergeRows_nil_cons (row : PropertyRow) (rows : List PropertyRow) :
    (row :: rows).foldl mergeRow [] = (row :: rows).foldl mergeRow [ofRow row] := by
  have hn : row.name = (ofRow row).name := rfl
  have hrow : mergeRow [ofRow row] row = [ofRow row] := by
    rw [mergeRow_cons, if_pos hn, describeBy_ofRow]
  rw [List.foldl_cons, List.foldl_cons, hrow]
  rfl

/-- Induction along the order in which a table is used up. -/
theorem table_induction {motive : List PropertyRow → List Property → Prop} (done : motive [] [])
    (adds : ∀ row rows, motive (row :: rows) [ofRow row] → motive (row :: rows) [])
    (takes : ∀ rows p ps, motive (others p.name rows) ps → motive rows (p :: ps)) :
    ∀ rows ps, motive rows ps
  | [], [] => done
  | row :: rows, [] =>
    adds row rows (takes _ _ _ (table_induction done adds takes (others row.name (row :: rows)) []))
  | rows, p :: ps => takes rows p ps (table_induction done adds takes (others p.name rows) ps)
termination_by rows ps => rows.length + ps.length
decreasing_by
  · have hlen : (others row.name rows).length ≤ rows.length := List.length_filter_le ..
    have hothers : others row.name (row :: rows) = others row.name rows := by simp [others]
    simp only [hothers, List.length_cons, List.length_nil]
    omega
  · have hlen : (others p.name rows).length ≤ rows.length := List.length_filter_le ..
    simp only [List.length_cons]
    omega

/-- Folding the same table in a second time changes nothing. -/
lemma mergeRows_mergeRows (rows : List PropertyRow) (ps : List Property) :
    rows.foldl mergeRow (rows.foldl mergeRow ps) = rows.foldl mergeRow ps := by
  induction rows, ps using table_induction with
  | done => rfl
  | adds row rows ih => rw [mergeRows_nil_cons, ih]
  | takes rows p ps ih => rw [mergeRows_cons, mergeRows_cons, name_described, described_described, ih]

/-- The new names come behind the old ones, each once, in the order of their first rows. -/
lemma names_mergeRows (rows : List PropertyRow) (ps : List Property) :
    names (rows.foldl mergeRow ps) =
      names ps ++ ((rows.map (·.name)).filter fun n => !(names ps).contains n).eraseDups := by
  induction rows generalizing ps with
  | nil => simp
  | cons row rows ih =>
    have hn : (ofRow row).name = row.name := rfl
    rw [List.foldl_cons, ih, names_mergeRow, names_appendNew, hn]
    by_cases hm : row.name ∈ names ps
    · simp [hm]
    · simp [hm, List.eraseDups_cons, List.filter_filter, Bool.and_comm, beq_eq_decide]

lemma nodup_names_mergeRows (rows : List PropertyRow) (h : (names ps).Nodup) :
    (names (rows.foldl mergeRow ps)).Nodup :=
  List.foldlRecOn (motive := fun ps => (names ps).Nodup) rows mergeRow h fun ps hps row _ => by
    rw [names_mergeRow]
    exact nodup_names_appendNew hps

lemma names_of_forall₂ {qs : List Property} (h : List.Forall₂ KeptAs ps qs) : names qs = names ps := by
  induction h with
  | nil => rfl
  | cons hk _ ih => rw [names_cons, names_cons, hk.name, ih]

lemma find?_others {name : String} (hne : name ≠ p.name) (rows : List PropertyRow) :
    (others p.name rows).find? (·.name == name) = rows.find? (·.name == name) := by
  rw [others, List.find?_filter]
  congr 1
  funext row
  by_cases hr : row.name = name <;> simp [hr, hne]

/-- The properties that were there are kept in their places, and each one behind them stands for the first row of
its name. -/
lemma mergeRows_eq_append (rows : List PropertyRow) (ps : List Property) :
    ∃ kept added, rows.foldl mergeRow ps = kept ++ added ∧ List.Forall₂ KeptAs ps kept ∧
      ∀ p ∈ added, p.name ∉ names ps ∧
        ∃ row, rows.find? (·.name == p.name) = some row ∧ AddedFor row p := by
  induction rows, ps using table_induction with
  | done => exact ⟨[], [], rfl, .nil, by simp⟩
  | adds row rows ih =>
    obtain ⟨kept, added, hfold, hkept, hadded⟩ := ih
    obtain ⟨q, _, hq, hrest, rfl⟩ := List.forall₂_cons_left_iff.mp hkept
    rw [List.forall₂_nil_left_iff] at hrest
    refine ⟨[], q :: added, by rw [mergeRows_nil_cons, hfold, hrest]; rfl, .nil, fun p hp => ⟨by simp, ?_⟩⟩
    rcases List.mem_cons.mp hp with rfl | hp
    · have hname : row.name = p.name := hq.name.symm
      exact ⟨row, by simp [hname], addedFor_of_keptAs hq⟩
    · exact (hadded p hp).2
  | takes rows p ps ih =>
    obtain ⟨kept, added, hfold, hkept, hadded⟩ := ih
    refine ⟨described rows p :: kept, added, by rw [mergeRows_cons, hfold]; rfl,
      .cons (keptAs_described rows p) hkept, fun q hq => ?_⟩
    obtain ⟨hnew, row, hfind, hrow⟩ := hadded q hq
    have hname : row.name = q.name := by simpa using List.find?_some hfind
    have hmem : row ∈ others p.name rows := List.mem_of_find?_eq_some hfind
    have hne : q.name ≠ p.name := by
      have := (List.mem_filter.mp hmem).2
      simpa [hname] using this
    exact ⟨by simp [hne, hnew], row, find?_others hne rows ▸ hfind, hrow⟩

/-- Every row has a property of its name, and that is described if the row can describe it. -/
lemma described_by_mergeRows (rows : List PropertyRow) (ps : List Property) (hrow : row ∈ rows) :
    ∃ p, (rows.foldl mergeRow ps).find? (·.name == row.name) = some p ∧
      (isBlankString p.description = true → isBlankString row.description = true) := by
  induction rows, ps using table_induction with
  | done => simp at hrow
  | adds r rows ih => rw [mergeRows_nil_cons]; exact ih hrow
  | takes rows p ps ih =>
    rw [mergeRows_cons]
    by_cases hn : row.name = p.name
    · exact ⟨described rows p, by simp [hn], fun hb => blank_row_of_blank_described hb hrow hn⟩
    · have hp : p.name ≠ row.name := fun h => hn h.symm
      obtain ⟨q, hfind, hq⟩ := ih (List.mem_filter.mpr ⟨hrow, by simpa using hn⟩)
      exact ⟨q, by simpa [hp] using hfind, hq⟩

/-! ## Whole pages -/

/-- The rows of a page that may be missing. -/
def rowsOf (demo? : Option DemoPage) : List PropertyRow := (demo?.map (·.rows)).getD []

lemma mergeDemo_eq (d : Descriptor) (demo? : Option DemoPage) :
    d.mergeDemo demo? = { d with
      examples := (demo?.map (·.examples)).getD []
      description := if isBlankString d.description then (demo?.bind (·.description)).getD d.description
        else d.description
      properties := (rowsOf demo?).foldl mergeRow d.properties } := by
  cases demo? with
  | none => simp [mergeDemo, rowsOf]
  | some page => rfl

lemma mergeDemo_mergeDemo (d : Descriptor) (demo? : Option DemoPage) :
    (d.mergeDemo demo?).mergeDemo demo? = d.mergeDemo demo? := by
  have hdescription (own : String) (given : Option String) :
      let once := if isBlankString own then given.getD own else own
      (if isBlankString once then given.getD once else once) = once := by
    cases given <;> cases hb : isBlankString own <;> simp [hb]
  simp only [mergeDemo_eq, mergeRows_mergeRows, hdescription]

/-- What folding a demo page, or none, into a descriptor comes to. The examples are the page's, and a blank
description takes the page's. The properties stay in their places and lose at most a blank description; behind
them stands one property for each new name of the table, in the order of the first rows. Nothing else changes,
and a second time the page changes nothing. -/
theorem mergeDemo_fills_gaps (d : Descriptor) (demo? : Option DemoPage) :
    let merged := d.mergeDemo demo?
    merged = { d with
      examples := (demo?.map (·.examples)).getD []
      description := if isBlankString d.description then (demo?.bind (·.description)).getD d.description
        else d.description
      properties := merged.properties } ∧
    (∃ kept added, merged.properties = kept ++ added ∧ List.Forall₂ KeptAs d.properties kept ∧
      names added = ((rowsOf demo?).map (·.name) |>.filter fun n => !(names d.properties).contains n).eraseDups ∧
      ∀ p ∈ added, ∃ row, (rowsOf demo?).find? (·.name == p.name) = some row ∧ AddedFor row p) ∧
    (∀ row ∈ rowsOf demo?, ∃ p, merged.property? row.name = some p ∧
      (isBlankString p.description = true → isBlankString row.description = true)) ∧
    ((names d.properties).Nodup → (names merged.properties).Nodup) ∧
    merged.mergeDemo demo? = merged := by
  intro merged
  have hmerged : merged.properties = (rowsOf demo?).foldl mergeRow d.properties := by
    simp only [merged, mergeDemo_eq]
  refine ⟨?_, ?_, ?_, ?_, mergeDemo_mergeDemo d demo?⟩
  · rw [hmerged]
    exact mergeDemo_eq d demo?
  · obtain ⟨kept, added, hfold, hkept, hadded⟩ := mergeRows_eq_append (rowsOf demo?) d.properties
    have hnames : names kept = names d.properties := names_of_forall₂ hkept
    refine ⟨kept, added, hmerged.trans hfold, hkept, ?_, fun p hp => (hadded p hp).2⟩
    have hall := names_mergeRows (rowsOf demo?) d.properties
    rw [hfold, names_append, hnames] at hall
    exact List.append_cancel_left hall
  · intro row hrow
    rw [property?, hmerged]
    exact described_by_mergeRows (rowsOf demo?) d.properties hrow
  · intro hd
    rw [hmerged]
    exact nodup_names_mergeRows (rowsOf demo?) hd

end UiCatalog.Descriptor
