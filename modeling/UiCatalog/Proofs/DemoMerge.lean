import UiCatalog.Descriptor.Merge
import UiCatalog.Proofs.Properties

/-!
# Descriptors with demo pages folded in

A row of the property table describes a property that is there or adds one that is not, which keeps the
properties complete. It adds a `ref` like any other property, so the descriptor of a component that passes none
on is standard no more when the table has a row of that name.
-/
namespace UiCatalog.Descriptor

variable {ps : List Property} {d : Descriptor}

lemma name_describe (description : String) (p : Property) : (describe description p).name = p.name := by
  rw [describe]
  split_ifs <;> rfl

lemma consistent_describe (description : String) {p : Property} (h : p.Consistent) :
    (describe description p).Consistent := by
  rw [describe]
  split_ifs
  · exact h
  · exact h

/-- A row leaves the names that are there in their places, and adds its own if it is not among them. -/
lemma names_mergeRow (ps : List Property) (row : Demo.PropertyRow) :
    names (mergeRow ps row) = names (appendNew (ofRow row) ps) := by
  have hn : (ofRow row).name = row.name := rfl
  rw [mergeRow, names_appendNew, any_name_eq, hn]
  by_cases hm : row.name ∈ names ps <;> simp [hm, hn, names_updateFirst (name_describe row.description)]

lemma orderly_mergeRow (h : Orderly ps) (row : Demo.PropertyRow) : Orderly (mergeRow ps row) where
  distinct := by
    rw [names_mergeRow]
    exact (orderly_appendNew h fun hr => absurd hr (by simp [ofRow])).distinct
  consistent := by
    rw [mergeRow]
    split_ifs with hm
    · exact (orderly_updateFirst h (name_describe _) fun _ => consistent_describe _).consistent
    · intro p hp
      rcases List.mem_append.mp hp with hp | hp
      · exact h.consistent p hp
      · rw [List.mem_singleton.mp hp]
        exact fun hr => absurd hr (by simp [ofRow])

lemma orderly_mergeRows (h : Orderly ps) (rows : List Demo.PropertyRow) : Orderly (rows.foldl mergeRow ps) :=
  List.foldlRecOn rows mergeRow h fun _ hps row _ => orderly_mergeRow hps row

/-- The names after a whole table are those before it and those of its rows. -/
lemma mem_names_mergeRows (rows : List Demo.PropertyRow) (ps : List Property) (name : String) :
    name ∈ names (rows.foldl mergeRow ps) ↔ name ∈ names ps ∨ ∃ row ∈ rows, row.name = name := by
  induction rows generalizing ps with
  | nil => simp
  | cons row rows ih =>
    have hrow : name ∈ names (mergeRow ps row) ↔ name ∈ names ps ∨ row.name = name := by
      rw [names_mergeRow, mem_names_appendNew, eq_comm]
      rfl
    rw [List.foldl_cons, ih, hrow, or_assoc, List.exists_mem_cons_iff]

variable {page : DemoPage}

lemma mem_names_mergeDemo {name : String} :
    name ∈ names (d.mergeDemo (some page)).properties ↔
      name ∈ names d.properties ∨ ∃ row ∈ page.rows, row.name = name :=
  mem_names_mergeRows page.rows d.properties name

lemma complete_mergeDemo (h : d.Complete) (page : DemoPage) : (d.mergeDemo (some page)).Complete := by
  have hclass : "className" ∈ names d.properties := List.count_pos_iff.mp (by simp [h.className])
  have hchildren : "children" ∈ names d.properties := List.count_pos_iff.mp (by simp [h.children])
  exact complete_of_mem (orderly_mergeRows h.toOrderly page.rows) (mem_names_mergeDemo.mpr (.inl hclass))
    (mem_names_mergeDemo.mpr (.inl hchildren))

/-- A row named `ref` gives the property to a component that passes no ref on. -/
lemma not_standard_mergeDemo (hf : d.forwardsRef = false) {row : Demo.PropertyRow} (hr : row ∈ page.rows)
    (hn : row.name = "ref") :
    "ref" ∈ names (d.mergeDemo (some page)).properties ∧ ¬ (d.mergeDemo (some page)).Standard := by
  have href : "ref" ∈ names (d.mergeDemo (some page)).properties :=
    mem_names_mergeDemo.mpr (.inr ⟨row, hr, hn⟩)
  refine ⟨href, fun hs => ?_⟩
  have hpassed : d.forwardsRef = true := hs.ref.mp href
  simp [hf] at hpassed

lemma standard_mergeDemo_iff (h : d.Standard) :
    (d.mergeDemo (some page)).Standard ↔ d.forwardsRef = true ∨ ∀ row ∈ page.rows, row.name ≠ "ref" := by
  have hcomplete := complete_mergeDemo h.toComplete page
  cases hf : d.forwardsRef with
  | true =>
    have hin : "ref" ∈ names (d.mergeDemo (some page)).properties :=
      mem_names_mergeDemo.mpr (.inl (h.ref.mpr hf))
    exact iff_of_true ⟨hcomplete, iff_of_true hin hf⟩ (.inl rfl)
  | false =>
    have hout : "ref" ∉ names d.properties := by simp [h.ref, hf]
    constructor
    · exact fun hs => .inr fun row hr hn => (not_standard_mergeDemo hf hr hn).2 hs
    · rintro (hpassed | hrows)
      · simp at hpassed
      · refine ⟨hcomplete, iff_of_false (fun hin => ?_) (Bool.eq_false_iff.mp hf)⟩
        rcases mem_names_mergeDemo.mp hin with hin | ⟨row, hr, hn⟩
        · exact hout hin
        · exact hrows row hr hn

lemma rows_read (page : List Char) (package : String) :
    (DemoPage.read page package).rows = Demo.propertyRows page := rfl

/-- Of a built descriptor and a demo page: the properties stay complete, and the descriptor stays standard just
when the component passes a ref on or no row of the table is named `ref`. -/
theorem built_mergeDemo (source page : List Char) (name package : String) :
    let demo := DemoPage.read page package
    let kept (d : Descriptor) := (d.mergeDemo (some demo)).Complete ∧
      ((d.mergeDemo (some demo)).Standard ↔
        d.forwardsRef = true ∨ ∀ row ∈ Demo.propertyRows page, row.name ≠ "ref")
    kept (build source name package) ∧ kept (buildCompound source name package) := by
  intro demo kept
  have hbuild := standard_build source name package
  have hcompound := standard_buildCompound source name package
  exact ⟨⟨complete_mergeDemo hbuild.toComplete demo, standard_mergeDemo_iff hbuild⟩,
    complete_mergeDemo hcompound.toComplete demo, standard_mergeDemo_iff hcompound⟩

/-- A component that passes no ref on. -/
def plainSource : List Char := "export function Tag(\x7b tone \x7d) \x7b\x7d".toList

/-- A demo page whose table has a row named `ref`. -/
def refPage : List Char := ("<Section title=\"Props\"><table><tr><td>ref</td><td>Ref</td><td>-</td><td>Root</td></tr>" ++
  "</table></Section>").toList

set_option maxRecDepth 20000 in
theorem ref_of_refPage :
    let d := build plainSource "Tag" "@/components/ui"
    let merged := d.mergeDemo (some (DemoPage.read refPage "@/components/ui"))
    d.forwardsRef = false ∧ "ref" ∈ names merged.properties ∧ ¬ merged.Standard := by
  have hf : (build plainSource "Tag" "@/components/ui").forwardsRef = false := by cbv
  have hrows : Demo.propertyRows refPage = [⟨"ref", "Ref", "-", "Root"⟩] := by cbv
  have hr : ⟨"ref", "Ref", "-", "Root"⟩ ∈ (DemoPage.read refPage "@/components/ui").rows := by
    rw [rows_read, hrows]
    exact .head _
  exact ⟨hf, not_standard_mergeDemo hf hr rfl⟩

end UiCatalog.Descriptor
