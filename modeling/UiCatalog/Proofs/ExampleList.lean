import UiCatalog.Demo.Examples
import UiCatalog.Proofs.Blanks
import UiCatalog.Proofs.Matching

/-!
# The list of examples

The elements of a page are added one after the other. Each is either dropped or becomes the next entry, so what is
listed is a function of the elements that are kept: `Listing` relates the two, and holds after every step.
-/
namespace UiCatalog.Demo

open Text Pattern Code

/-! ## Entries -/

/-- The elements with code of a page, in the order in which they are added. -/
def elements (source : List Char) : List (Example.Kind × Match) :=
  ((codeElement "Example").findAll source).map (Example.Kind.live, ·) ++
    ((codeElement "CodeBlock").findAll source).map (Example.Kind.codeBlock, ·)

/-- The code of an element as it is listed. -/
def codeOf (found : Match) : List Char := dedent (unescapeTemplate (found.get 1))

/-- No section starts before the element. -/
def isUntitled (headings : List Section) (found : Match) : Bool := (titleBefore? headings found.start).isNone

/-- The title of an element that is listed behind the elements `earlier`. -/
def titleBehind (headings : List Section) (earlier : List (Example.Kind × Match)) (found : Match) : String :=
  match titleBefore? headings found.start with
  | some title => String.ofList title
  | none => "Example " ++ toString (earlier.countP (fun e => isUntitled headings e.2) + 1)

/-- The entry of an element that is listed behind the elements `earlier`. -/
def entryBehind (headings : List Section) (earlier : List (Example.Kind × Match)) (e : Example.Kind × Match) :
    Example :=
  ⟨titleBehind headings earlier e.2, String.ofList (codeOf e.2), e.1⟩

/-- The entries of some elements behind those of the elements `earlier`. -/
def entriesBehind (headings : List Section) (earlier : List (Example.Kind × Match)) :
    List (Example.Kind × Match) → List Example
  | [] => []
  | e :: es => entryBehind headings earlier e :: entriesBehind headings (earlier ++ [e]) es

variable {headings : List Section} {imports : List Example} {earlier kept es : List (Example.Kind × Match)}
  {c : Collected} {e : Example.Kind × Match}

lemma entriesBehind_concat : entriesBehind headings earlier (kept ++ [e]) =
    entriesBehind headings earlier kept ++ [entryBehind headings (earlier ++ kept) e] := by
  induction kept generalizing earlier with
  | nil => rw [List.append_nil]; rfl
  | cons e' kept ih =>
    rw [List.cons_append, entriesBehind, ih, List.append_assoc]
    rfl

lemma mem_entriesBehind {x : Example} (hx : x ∈ entriesBehind headings earlier kept) :
    ∃ e ∈ kept, x.kind = e.1 ∧ x.code = String.ofList (codeOf e.2) := by
  induction kept generalizing earlier with
  | nil => exact absurd hx List.not_mem_nil
  | cons e kept ih =>
    rcases List.mem_cons.1 hx with rfl | hx
    · exact ⟨e, .head _, rfl, rfl⟩
    · obtain ⟨e', he', hkind⟩ := ih hx
      exact ⟨e', .tail _ he', hkind⟩

/-! ## One step -/

/-- The element is not listed: its code is empty, known, or an import in a code block. -/
def Drops (c : Collected) (e : Example.Kind × Match) : Prop :=
  codeOf e.2 = [] ∨ (∃ x ∈ c.examples, x.code = String.ofList (codeOf e.2)) ∨
    (e.1 = .codeBlock ∧ "import".toList <+: codeOf e.2)

lemma drops_iff : Drops c e ↔
    (((codeOf e.2).isEmpty || c.examples.any (·.code == String.ofList (codeOf e.2))) = true) ∨
      (e.1 == .codeBlock && "import".toList.isPrefixOf (codeOf e.2)) = true := by
  simp [Drops, or_assoc]

lemma add_of_drops (h : Drops c e) : c.add headings e.1 e.2 = c := by
  rw [Collected.add]
  rcases drops_iff.1 h with hknown | himport
  · exact if_pos hknown
  · refine (ite_eq_left_iff.2 fun _ => ?_)
    exact if_pos himport

lemma add_of_not_drops (headings : List Section) (h : ¬ Drops c e) : c.add headings e.1 e.2 =
    match titleBefore? headings e.2.start with
    | some title => { c with examples := c.examples ++ [⟨String.ofList title, String.ofList (codeOf e.2), e.1⟩] }
    | none =>
      ⟨c.examples ++ [⟨"Example " ++ toString (c.untitled + 1), String.ofList (codeOf e.2), e.1⟩], c.untitled + 1⟩ := by
  rw [drops_iff, not_or] at h
  rw [Collected.add]
  exact (if_neg h.1).trans (if_neg h.2)

/-- What is not dropped becomes the next entry, and counts if it is untitled. -/
lemma add_of_counted (h : ¬ Drops c e) (hc : c.untitled = earlier.countP fun e => isUntitled headings e.2) :
    c.add headings e.1 e.2 = ⟨c.examples ++ [entryBehind headings earlier e],
      (earlier ++ [e]).countP fun e => isUntitled headings e.2⟩ := by
  rw [add_of_not_drops headings h, List.countP_append, List.countP_singleton, isUntitled]
  simp only [entryBehind, titleBehind]
  cases titleBefore? headings e.2.start <;> simp [hc]

lemma exists_entry_of_not_drops (headings : List Section) (h : ¬ Drops c e) :
    ∃ title, (c.add headings e.1 e.2).examples = c.examples ++ [⟨title, String.ofList (codeOf e.2), e.1⟩] := by
  rw [add_of_not_drops headings h]
  cases titleBefore? headings e.2.start <;> exact ⟨_, rfl⟩

/-! ## All elements -/

/-- Adds the elements one after the other. -/
def addAll (headings : List Section) (c : Collected) (es : List (Example.Kind × Match)) : Collected :=
  es.foldl (fun (c : Collected) e => c.add headings e.1 e.2) c

lemma addAll_cons (headings : List Section) (c : Collected) (e : Example.Kind × Match)
    (es : List (Example.Kind × Match)) :
    addAll headings c (e :: es) = addAll headings (c.add headings e.1 e.2) es := by
  rw [addAll, List.foldl_cons, addAll]

/-- What has been listed once the elements `kept` were added and others were dropped. -/
structure Listing (headings : List Section) (imports : List Example) (kept : List (Example.Kind × Match))
    (c : Collected) : Prop where
  examples : c.examples = imports ++ entriesBehind headings [] kept
  untitled : c.untitled = kept.countP fun e => isUntitled headings e.2
  coded : ∀ x ∈ c.examples, x.code ≠ ""
  distinct : (c.examples.map (·.code)).Nodup
  noImport : ∀ e ∈ kept, e.1 = .codeBlock → ¬ "import".toList <+: codeOf e.2

lemma Listing.add (h : Listing headings imports kept c) (hnew : ¬ Drops c e) :
    Listing headings imports (kept ++ [e]) (c.add headings e.1 e.2) := by
  rw [add_of_counted hnew h.untitled]
  simp only [Drops, not_or] at hnew
  obtain ⟨hcode, hknown, himport⟩ := hnew
  refine ⟨?_, rfl, ?_, ?_, ?_⟩
  · rw [entriesBehind_concat, List.nil_append, ← List.append_assoc, ← h.examples]
  · intro x hx
    rcases List.mem_append.1 hx with hx | hx
    · exact h.coded x hx
    · obtain rfl := List.mem_singleton.1 hx
      simpa [entryBehind] using hcode
  · rw [List.map_append, List.map_singleton, List.nodup_append_comm]
    exact List.nodup_cons.2 ⟨fun hmem => hknown (List.mem_map.1 hmem), h.distinct⟩
  · intro e' he'
    rcases List.mem_append.1 he' with he' | he'
    · exact h.noImport e' he'
    · obtain rfl := List.mem_singleton.1 he'
      exact fun hkind hstart => himport ⟨hkind, hstart⟩

/-- Some of the elements are kept, in their order. -/
lemma Listing.addAll (h : Listing headings imports kept c) (es : List (Example.Kind × Match)) :
    ∃ more, more.Sublist es ∧ Listing headings imports (kept ++ more) (addAll headings c es) := by
  induction es generalizing kept c with
  | nil => exact ⟨[], .slnil, by simpa [Demo.addAll] using h⟩
  | cons e es ih =>
    rw [addAll_cons]
    by_cases hdrops : Drops c e
    · rw [add_of_drops hdrops]
      obtain ⟨more, hmore, hlisting⟩ := ih h
      exact ⟨more, hmore.cons e, hlisting⟩
    · obtain ⟨more, hmore, hlisting⟩ := ih (h.add hdrops)
      exact ⟨e :: more, hmore.cons_cons e, by simpa using hlisting⟩

lemma prefix_add (headings : List Section) (c : Collected) (e : Example.Kind × Match) :
    c.examples <+: (c.add headings e.1 e.2).examples := by
  by_cases hdrops : Drops c e
  · rw [add_of_drops hdrops]
  · obtain ⟨title, hadd⟩ := exists_entry_of_not_drops headings hdrops
    rw [hadd]
    exact List.prefix_append _ _

lemma prefix_addAll (headings : List Section) (es : List (Example.Kind × Match)) (c : Collected) :
    c.examples <+: (addAll headings c es).examples := by
  induction es generalizing c with
  | nil => exact List.prefix_rfl
  | cons e es ih =>
    rw [addAll_cons]
    exact (prefix_add headings c e).trans (ih _)

lemma Drops.mono {c' : Collected} (h : Drops c e) (hfront : c.examples <+: c'.examples) : Drops c' e :=
  h.imp_right fun h => h.imp_left fun ⟨x, hx, hcode⟩ => ⟨x, hfront.subset hx, hcode⟩

/-- In the end every element is one that would be dropped: once it is listed, its code is known. -/
lemma drops_addAll (headings : List Section) (es : List (Example.Kind × Match)) (c : Collected) (he : e ∈ es) :
    Drops (addAll headings c es) e := by
  obtain ⟨before, after, rfl⟩ := List.append_of_mem he
  rw [addAll, List.foldl_append, List.foldl_cons]
  refine Drops.mono ?_ (prefix_addAll headings after _)
  generalize before.foldl (fun (c : Collected) e => c.add headings e.1 e.2) c = c
  by_cases hdrops : Drops c e
  · rwa [add_of_drops hdrops]
  · obtain ⟨title, hadd⟩ := exists_entry_of_not_drops headings hdrops
    have hlisted : ⟨title, String.ofList (codeOf e.2), e.1⟩ ∈ (c.add headings e.1 e.2).examples := by
      rw [hadd]
      exact List.mem_append_right _ (List.mem_singleton_self _)
    exact .inr (.inl ⟨_, hlisted, rfl⟩)

/-! ## The page -/

lemma examples_eq (source : List Char) (package : String) : examples source package =
    (addAll (sections source) ⟨(importExample? source package).toList, 0⟩ (elements source)).examples := by
  rw [elements, addAll, List.foldl_append, List.foldl_map, List.foldl_map]
  rfl

/-- A page on which nothing is read has no examples. -/
lemma examples_of_none {source : List Char} {package : String} (himport : importExample? source package = none)
    (hlive : (codeElement "Example").findAll source = []) (hblocks : (codeElement "CodeBlock").findAll source = []) :
    examples source package = [] := by
  rw [examples_eq, himport, elements, hlive, hblocks]
  rfl

/-- A page with one live element and nothing else has one example. -/
lemma examples_of_single {source body : List Char} {package : String} {place : ℕ}
    (himport : importExample? source package = none)
    (hlive : ((codeElement "Example").findAll source).map (fun m => (m.start, m.get 1)) = [(place, body)])
    (hblocks : (codeElement "CodeBlock").findAll source = []) (hcode : dedent (unescapeTemplate body) ≠ []) :
    ∃ title, examples source package = [⟨title, String.ofList (dedent (unescapeTemplate body)), .live⟩] ∧
      title = ((titleBefore? (sections source) place).map String.ofList).getD "Example 1" := by
  obtain ⟨found, hfound, hkey⟩ := List.map_eq_singleton_iff.1 hlive
  obtain ⟨rfl, rfl⟩ := Prod.mk.inj hkey
  have hnew : ¬ Drops ⟨[], 0⟩ (.live, found) := by
    rintro (hempty | ⟨x, hx, -⟩ | ⟨hkind, -⟩)
    · exact hcode hempty
    · exact absurd hx List.not_mem_nil
    · cases hkind
  have hadd : (addAll (sections source) ⟨[], 0⟩ [(.live, found)]).examples =
      [entryBehind (sections source) [] (.live, found)] := by
    have hcount : 0 = ([] : List (Example.Kind × Match)).countP fun e => isUntitled (sections source) e.2 := rfl
    rw [addAll_cons, add_of_counted hnew hcount]
    rfl
  refine ⟨titleBehind (sections source) [] found, ?_, ?_⟩
  · rw [examples_eq, himport, elements, hfound, hblocks]
    exact hadd
  · rw [titleBehind]
    cases titleBefore? (sections source) found.start with
    | some title => rfl
    | none => exact (by cbv : "Example " ++ toString 1 = "Example 1")

lemma mem_of_spells_importPattern {t : List Char} (h : Spells importPattern t) : 'i' ∈ t := by
  obtain ⟨_, _, h, -, rfl⟩ := h
  obtain ⟨_, _, ⟨_, _, ⟨_, _, ⟨_, _, ⟨_, _, ⟨_, _, ⟨_, _, h, -, rfl⟩, -, rfl⟩, -, rfl⟩, -, rfl⟩, -, rfl⟩, -, rfl⟩, -,
    rfl⟩ := h
  obtain ⟨_, _, ⟨_, keyword, -, hkeyword, rfl⟩, -, rfl⟩ := h
  rw [spells_text.1 hkeyword]
  simp

lemma code_of_importExample? {source : List Char} {package : String} {x : Example}
    (hx : x ∈ importExample? source package) : x.kind = .importLine ∧ x.code ≠ "" := by
  obtain ⟨found, hfound, rfl⟩ := Option.map_eq_some_iff.1 hx
  refine ⟨rfl, fun hempty => ?_⟩
  have hmem := mem_of_spells_importPattern (covers_of_mem_findAll (List.mem_of_find?_eq_some hfound)).1
  obtain ⟨t, u, hchars⟩ := List.append_of_mem hmem
  have hcode : trim found.chars = trimStart t ++ 'i' :: trimEnd u := by rw [hchars, trim_append_cons (by decide)]
  simp [hcode] at hempty

/-- The examples are the import, if there is one, and the entries of the elements that are kept. -/
theorem exists_listing (source : List Char) (package : String) : ∃ kept c, kept.Sublist (elements source) ∧
    Listing (sections source) (importExample? source package).toList kept c ∧
    examples source package = c.examples ∧ ∀ e ∈ elements source, Drops c e := by
  have hstart : Listing (sections source) (importExample? source package).toList []
      ⟨(importExample? source package).toList, 0⟩ := by
    refine ⟨by simp [entriesBehind], rfl, fun x hx => (code_of_importExample? (Option.mem_toList.1 hx)).2, ?_, by simp⟩
    cases importExample? source package <;> simp
  obtain ⟨kept, hkept, hlisting⟩ := hstart.addAll (elements source)
  exact ⟨kept, _, hkept, hlisting, examples_eq source package, fun e he => drops_addAll _ _ _ he⟩

end UiCatalog.Demo
