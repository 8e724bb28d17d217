import UiCatalog.Proofs.CodeElements
import UiCatalog.Proofs.ExampleList
import UiCatalog.Proofs.Sections

/-!
# Order and titles of examples

The examples of a page are its import, the live examples and the code blocks, each in the order of the page and no code
twice. An example has the title of the section before it, or a number: the numbers count on over both kinds.
-/
namespace UiCatalog.Demo

open Text Pattern Code

/-- The elements of a name with code, one behind the other. -/
def InOrder (name : String) (source : List Char) (elements : List Match) : Prop :=
  (elements.Pairwise fun m m' => m.start < m'.start) ∧ ∀ m ∈ elements, CodeElementAt name source m.start (m.get 1)

/-- No section of the page starts before the element. -/
def Untitled (source : List Char) (found : Match) : Prop := ∀ s ∈ sections source, found.start ≤ s.start

instance (source : List Char) : DecidablePred (Untitled source) := fun found =>
  inferInstanceAs (Decidable (∀ s ∈ sections source, found.start ≤ s.start))

/-- The title of an element that is listed behind `earlier`: that of the last section before it, or the next number. -/
inductive Titled (source : List Char) (earlier : List (Example.Kind × Match)) (found : Match) : String → Prop
  | section {s} : IsLastBefore source found.start s → Titled source earlier found (String.ofList s.title)
  | number : Untitled source found →
      Titled source earlier found ("Example " ++ toString (earlier.countP (fun e => Untitled source e.2) + 1))

/-- The examples of a page: perhaps an import, then the live elements, then the blocks; no code is empty or listed
twice, and no block is an import. -/
structure IsListOf (source : List Char) (imports : List Example) (live blocks : List Match)
    (examples : List Example) : Prop where
  entries : examples = imports ++ entriesBehind (sections source) []
    (live.map (Example.Kind.live, ·) ++ blocks.map (Example.Kind.codeBlock, ·))
  single : imports.length ≤ 1
  imports : ∀ x ∈ imports, x.kind = .importLine
  live : InOrder "Example" source live
  blocks : InOrder "CodeBlock" source blocks
  coded : ∀ x ∈ examples, x.code ≠ ""
  distinct : (examples.map (·.code)).Nodup
  noImport : ∀ x ∈ examples, x.kind = .codeBlock → ¬ "import".toList <+: x.code.toList

variable {source : List Char} {found : Match} {earlier : List (Example.Kind × Match)} {name : String}

lemma isUntitled_eq : isUntitled (sections source) found = decide (Untitled source found) := by
  rw [isUntitled, Bool.eq_iff_iff, Option.isNone_iff_eq_none, titleBefore?_eq_none, decide_eq_true_iff]
  rfl

lemma titled_titleBehind : Titled source earlier found (titleBehind (sections source) earlier found) := by
  rw [titleBehind]
  cases htitle : titleBefore? (sections source) found.start with
  | some title =>
    obtain ⟨s, hs, rfl⟩ := titleBefore?_eq_some htitle
    exact .section hs
  | none =>
    simp only [isUntitled_eq]
    exact .number (titleBefore?_eq_none.1 htitle)

lemma inOrder_of_sublist (hn : IsWordName name.toList) {elements : List Match}
    (h : elements.Sublist ((codeElement name).findAll source)) : InOrder name source elements := by
  have hfound (m : Match) (hm : m ∈ (codeElement name).findAll source) := codeElementAt_of_mem_findAll hn hm
  exact ⟨(pairwise_start_findAll fun m hm => (hfound m hm).2).sublist h, fun m hm => (hfound m (h.subset hm)).1⟩

lemma exists_isListOf (source : List Char) (package : String) :
    ∃ imports live blocks, IsListOf source imports live blocks (examples source package) := by
  obtain ⟨kept, c, hkept, hlisting, hexamples, -⟩ := exists_listing source package
  obtain ⟨_, _, rfl, hlive, hblocks⟩ := List.sublist_append_iff.1 hkept
  obtain ⟨live, hliveFound, rfl⟩ := List.sublist_map_iff.1 hlive
  obtain ⟨blocks, hblocksFound, rfl⟩ := List.sublist_map_iff.1 hblocks
  have himports : ∀ x ∈ (importExample? source package).toList, x.kind = .importLine := fun x hx =>
    (code_of_importExample? (Option.mem_toList.1 hx)).1
  have hnoImport : ∀ x ∈ c.examples, x.kind = .codeBlock → ¬ "import".toList <+: x.code.toList := by
    intro x hx hkind
    rw [hlisting.examples] at hx
    rcases List.mem_append.1 hx with hx | hx
    · exact absurd ((himports x hx).symm.trans hkind) (by decide)
    · obtain ⟨e, he, hsame, hcode⟩ := mem_entriesBehind hx
      have hchars : x.code.toList = codeOf e.2 := (congrArg String.toList hcode).trans String.toList_ofList
      exact fun hstart => hlisting.noImport e he (hsame.symm.trans hkind) (hstart.trans (by rw [hchars]))
  rw [hexamples]
  exact ⟨(importExample? source package).toList, live, blocks, hlisting.examples, Option.length_toList_le, himports,
    inOrder_of_sublist isWordName_example hliveFound, inOrder_of_sublist isWordName_codeBlock hblocksFound,
    hlisting.coded, hlisting.distinct, hnoImport⟩

/-- The examples of a page are listed in order. Those of elements are titled by the last section that is listed before
them or numbered; the sections that are listed are those that stand in the page, but for what lies within the opening of
another. -/
theorem examples_in_order (source : List Char) (package : String) :
    (∃ imports live blocks, IsListOf source imports live blocks (examples source package)) ∧
      (∀ earlier found, Titled source earlier found (titleBehind (sections source) earlier found)) ∧
      (∀ s ∈ sections source, ∃ extent, SectionAt source s.start s.title extent) ∧
      ∀ place title extent, SectionAt source place title extent → ⟨place, title⟩ ∈ sections source ∨
        ∃ s ∈ sections source, ∃ extent, SectionAt source s.start s.title extent ∧ s.start < place ∧
          place < s.start + extent.length :=
  ⟨exists_isListOf source package, fun _ _ => titled_titleBehind, fun _ => sectionAt_of_mem,
    fun _ _ _ => mem_or_covered_of_sectionAt⟩

/-! ## Titles that are not read -/

def apostropheText : String := "<Section title=\x7b\"What's new\"\x7d>\n<Example code=\x7b\x60<A />\x60\x7d />"

def arrowText : String := "<Section icon=\x7b() => 1\x7d title=\"New\">\n<Example code=\x7b\x60<A />\x60\x7d />"

lemma numbered_of_no_sections {source : List Char} (place : ℕ) (himport : importExample? source "ui" = none)
    (hlive : ((codeElement "Example").findAll source).map (fun m => (m.start, m.get 1)) = [(place, "<A />".toList)])
    (hblocks : (codeElement "CodeBlock").findAll source = []) (hsections : sections source = []) :
    examples source "ui" = [⟨"Example 1", "<A />", .live⟩] := by
  have hcode : dedent (unescapeTemplate "<A />".toList) = "<A />".toList := by cbv
  obtain ⟨title, hexamples, htitle⟩ := examples_of_single himport hlive hblocks (by rw [hcode]; decide)
  rw [hexamples, htitle, hsections, hcode]
  rfl

/-- A title in braces is not read if a quote mark of another kind stands in it, and no title is read behind an arrow. -/
theorem numbered_behind_unread_titles :
    examples apostropheText.toList "ui" = [⟨"Example 1", "<A />", .live⟩] ∧
      examples arrowText.toList "ui" = [⟨"Example 1", "<A />", .live⟩] :=
  ⟨numbered_of_no_sections 31 (by cbv) (by cbv) (by cbv) (by cbv),
    numbered_of_no_sections 37 (by cbv) (by cbv) (by cbv) (by cbv)⟩

end UiCatalog.Demo
