import UiCatalog.Project
import UiCatalog.Proofs.Walks

/-!
# Components are gathered one by one

A catalog holds what each component directory comes to on its own. A directory that cannot be described is left
out, and whatever changes in one directory the others stay in the catalog as they are.
-/
namespace UiCatalog

open Text FileTree

namespace Text

/-! ## Names of files -/

lemma ofNat_ne_slash {n : Nat} (h : 0x30 ≤ n) : Char.ofNat n ≠ '/' := by
  intro heq
  have hval : (Char.ofNat n).toNat = 0x2F := by rw [heq]; rfl
  by_cases hvalid : n.isValidChar
  · rw [Char.toNat_ofNat, if_pos hvalid] at hval
    omega
  · rw [Char.toNat_ofNat, if_neg hvalid] at hval
    omega

lemma upperChar_no_slash {c : Char} (hc : c ≠ '/') : '/' ∉ upperChar c := by
  -- the forms in the tables come after the slash, and in ASCII it is the upper case of itself alone
  have hexpansions : ∀ e ∈ upperExpansions, ∀ n ∈ e.2, 0x30 ≤ n := by decide +kernel
  have hruns : ∀ r ∈ upperRuns, 0x30 ≤ r.2.2.2 := by decide +kernel
  have hletters : ∀ n < 0x80, (Char.ofNat n).toUpper = '/' → Char.ofNat n = '/' := by decide
  unfold upperChar
  split_ifs with hascii
  · have hupper : c.toUpper = '/' → c = '/' := forall_ascii (p := fun c => c.toUpper = '/' → c = '/') hletters hascii
    rw [List.mem_singleton]
    exact fun heq => hc (hupper heq.symm)
  · split
    · next form hfind =>
      rw [List.mem_map]
      rintro ⟨n, hn, heq⟩
      exact ofNat_ne_slash (hexpansions _ (List.mem_of_find?_eq_some hfind) n hn) heq
    · rw [List.mem_singleton]
      unfold mapRuns
      cases hfind : upperRuns.find? _ with
      | none => exact Ne.symm hc
      | some r =>
        have hfirst := hruns r (List.mem_of_find?_eq_some hfind)
        exact Ne.symm (ofNat_ne_slash (hfirst.trans (Nat.le_add_right _ _)))

lemma capitaliseAfter_no_slash {s : List Char} (hs : '/' ∉ s) (atStart : Bool) : '/' ∉ capitaliseAfter atStart s := by
  induction s generalizing atStart with
  | nil => exact List.not_mem_nil
  | cons c s ih =>
    rw [List.mem_cons, not_or] at hs
    rw [capitaliseAfter]
    split_ifs
    · exact ih hs.2 true
    · rw [List.mem_append, not_or]
      exact ⟨upperChar_no_slash (Ne.symm hs.1), ih hs.2 false⟩
    · rw [List.mem_append, not_or, List.mem_singleton]
      exact ⟨hs.1, ih hs.2 false⟩

end Text

namespace FileTree

/-- Both trees are the same outside a directory, and have the directory. -/
structure ChangedInside (place : Location) (t t' : FileTree) : Prop where
  directory : t.isDirectoryAt place = true
  frame : ∀ l, ¬ (place <+: l ∧ place ≠ l) → t'.entry? l = t.entry? l
  start : t'.workingDirectory = t.workingDirectory

variable {t t' : FileTree} {place l : Location} {n m s : String}

lemma isDirectoryAt_congr (h : t'.entry? l = t.entry? l) : t'.isDirectoryAt l = t.isDirectoryAt l := by
  rw [isDirectoryAt, isDirectoryAt, h]

lemma fileAt?_congr (h : t'.entry? l = t.entry? l) : t'.fileAt? l = t.fileAt? l := by
  rw [fileAt?, fileAt?, h]

/-- What stands next to the directory, or in a directory next to it, is the same. -/
lemma ChangedInside.sibling (h : ChangedInside (place ++ [n]) t t') (hne : m ≠ n) (rest : Location) :
    t'.entry? (place ++ [m] ++ rest) = t.entry? (place ++ [m] ++ rest) := by
  apply h.frame
  rintro ⟨hbelow, -⟩
  rw [List.append_assoc, List.prefix_append_right_inj, List.singleton_append, List.cons_prefix_cons] at hbelow
  exact hne hbelow.1.symm

lemma ChangedInside.parent (h : ChangedInside (place ++ [n]) t t') :
    t'.isDirectoryAt place = t.isDirectoryAt place := by
  refine isDirectoryAt_congr (h.frame place ?_)
  rintro ⟨hbelow, -⟩
  have hle := hbelow.length_le
  simp at hle

lemma ChangedInside.subdirectories (h : ChangedInside (place ++ [n]) t t') :
    t'.subdirectories place = t.subdirectories place := by
  apply subdirectories_congr
  intro m
  by_cases hm : m = n
  · apply h.frame
    simp [hm]
  · have hsame := h.sibling hm []
    rwa [List.append_nil] at hsame

lemma ChangedInside.elsewhere (h : ChangedInside place t t') (houtside : ¬ place <+: l) (s : String) :
    t'.entry? (l ++ [s]) = t.entry? (l ++ [s]) := by
  apply h.frame
  rintro ⟨hbelow, hne⟩
  rcases List.prefix_concat_iff.1 hbelow with heq | hbelow
  · exact hne heq
  · exact houtside hbelow

end FileTree

namespace Project

variable {p : Project} {t t' : FileTree} {directory base : Path} {place : Location}
  {name stem extension time : String}

/-! ## Candidates -/

lemma isName_file (hstem : '/' ∉ stem.toList) (hextension : extension ∈ sourceExtensions ++ demoExtensions) :
    IsName (stem ++ "." ++ extension) := by
  have hextensions : ∀ e ∈ sourceExtensions ++ demoExtensions, 2 ≤ e.toList.length ∧ '/' ∉ e.toList := by decide
  obtain ⟨hlength, hslash⟩ := hextensions extension hextension
  have hlong : 3 ≤ (stem ++ "." ++ extension).toList.length := by
    simp only [String.toList_append, List.length_append]
    have hdot : ".".toList.length = 1 := rfl
    omega
  refine ⟨?_, ?_, ?_⟩
  · rw [Path.isIdle, Bool.or_eq_false_iff, beq_eq_false_iff_ne, beq_eq_false_iff_ne]
    constructor
    · intro heq
      rw [heq] at hlong
      exact absurd hlong (by decide)
    · intro heq
      rw [heq] at hlong
      exact absurd hlong (by decide)
  · intro heq
    rw [heq] at hlong
    exact absurd hlong (by decide)
  · rw [String.toList_append, String.toList_append, List.mem_append, List.mem_append, not_or, not_or]
    exact ⟨⟨hstem, by decide⟩, hslash⟩

lemma mem_pieces_of_name {q : Path} (h : .name name ∈ q.components) : name ∈ q.pieces := by
  have hstep (piece : String) (hpiece : Path.step? piece = some (.name name)) : piece = name := by
    unfold Path.step? at hpiece
    split_ifs at hpiece
    · cases hpiece
    · exact Path.Component.name.inj (Option.some.inj hpiece)
  obtain ⟨first, rest, hpieces⟩ := List.exists_cons_of_ne_nil q.pieces_ne_nil
  rw [Path.components, hpieces] at h
  rw [hpieces]
  rcases List.mem_append.1 h with hfirst | hrest
  · rw [Option.mem_toList, Path.firstStep?] at hfirst
    split_ifs at hfirst
    · cases hfirst
    · cases hfirst
    · rw [hstep first hfirst]
      exact List.mem_cons_self
  · obtain ⟨piece, hmem, hpiece⟩ := List.mem_filterMap.1 hrest
    rw [← hstep piece hpiece]
    exact List.mem_cons_of_mem _ hmem

lemma stem_no_slash (directory : Path) : '/' ∉ (Project.stem directory).toList := by
  rw [Project.stem, Path.fileName?]
  split
  · next s hlast => exact Path.no_slash_of_mem_pieces (mem_pieces_of_name (List.mem_of_getLast? hlast))
  · exact List.not_mem_nil

lemma componentName_no_slash (h : '/' ∉ name.toList) : '/' ∉ (componentName name).toList := by
  rw [componentName, String.toList_ofList]
  exact capitaliseAfter_no_slash h true

lemma exists_name_of_candidate {path : Path} {stems extensions : List String}
    (hstems : ∀ stem ∈ stems, '/' ∉ stem.toList) (hextensions : extensions ⊆ sourceExtensions ++ demoExtensions)
    (h : path ∈ candidates directory stems extensions) : ∃ s, IsName s ∧ path = directory.join ⟨s⟩ := by
  rw [candidates, List.mem_flatMap] at h
  obtain ⟨stem, hstem, h⟩ := h
  obtain ⟨extension, hextension, rfl⟩ := List.mem_map.1 h
  exact ⟨_, isName_file (hstems stem hstem) (hextensions hextension), rfl⟩

lemma exists_name_of_source {path : Path} (h : path ∈
    candidates directory [componentName (Project.stem directory), Project.stem directory, "index"] sourceExtensions) :
    ∃ s, IsName s ∧ path = directory.join ⟨s⟩ := by
  have hstem := stem_no_slash directory
  refine exists_name_of_candidate ?_ (List.subset_append_left _ _) h
  simp [hstem, componentName_no_slash hstem]

lemma exists_name_of_demo {path : Path} (h : path ∈
    candidates p.demosDir [componentName (Project.stem directory), Project.stem directory] demoExtensions) :
    ∃ s, IsName s ∧ path = p.demosDir.join ⟨s⟩ := by
  have hstem := stem_no_slash directory
  refine exists_name_of_candidate ?_ (List.subset_append_right _ _) h
  simp [hstem, componentName_no_slash hstem]

lemma isFile_congr {path : Path} (h : t'.bytes? path = t.bytes? path) : t'.isFile path = t.isFile path := by
  rw [FileTree.isFile, FileTree.isFile, h]

lemma text?_congr {path : Path} (h : t'.bytes? path = t.bytes? path) : t'.text? path = t.text? path := by
  rw [FileTree.text?, FileTree.text?, h]

/-! ## One directory -/

/-- What a directory comes to depends on its files and on the demo pages alone. -/
lemma outcome_congr (hsource : ∀ s, IsName s → t'.bytes? (directory.join ⟨s⟩) = t.bytes? (directory.join ⟨s⟩))
    (hdemo : ∀ s, IsName s → t'.bytes? (p.demosDir.join ⟨s⟩) = t.bytes? (p.demosDir.join ⟨s⟩)) :
    p.outcome t' directory = p.outcome t directory := by
  have hsources : ∀ path ∈ candidates directory
      [componentName (Project.stem directory), Project.stem directory, "index"] sourceExtensions,
      t'.bytes? path = t.bytes? path := by
    intro path hpath
    obtain ⟨s, hs, rfl⟩ := exists_name_of_source hpath
    exact hsource s hs
  have hdemos : ∀ path ∈ candidates p.demosDir
      [componentName (Project.stem directory), Project.stem directory] demoExtensions,
      t'.bytes? path = t.bytes? path := by
    intro path hpath
    obtain ⟨s, hs, rfl⟩ := exists_name_of_demo hpath
    exact hdemo s hs
  have hsource? : source? t' directory (componentName (Project.stem directory)) =
      source? t directory (componentName (Project.stem directory)) :=
    List.find?_congr fun path hpath => isFile_congr (hsources path hpath)
  have hdemo? : p.demo? t' directory (componentName (Project.stem directory)) =
      p.demo? t directory (componentName (Project.stem directory)) :=
    List.find?_congr fun path hpath => isFile_congr (hdemos path hpath)
  have hread : p.readDemo t' directory (componentName (Project.stem directory)) =
      p.readDemo t directory (componentName (Project.stem directory)) := by
    unfold readDemo
    rw [hdemo?]
    split
    · rfl
    · next path hpath => rw [text?_congr (hdemos path (List.mem_of_find?_eq_some hpath))]
  have hdescribe : p.describe t' directory (componentName (Project.stem directory)) =
      p.describe t directory (componentName (Project.stem directory)) := by
    unfold describe
    rw [hsource?, hread]
    split
    · rfl
    · next path hpath => rw [text?_congr (hsources path (List.mem_of_find?_eq_some hpath))]
  rw [outcome, hdescribe]
  rfl

/-- A source is missing, or it or the demo page is no text. -/
def Lost (p : Project) (t : FileTree) (directory : Path) (component : String) : Prop :=
  source? t directory component = none ∨
  (∃ path, source? t directory component = some path ∧ t.text? path = none) ∨
  ∃ path, p.demo? t directory component = some path ∧ t.text? path = none

lemma descriptor?_eq_none_iff : (p.outcome t directory).descriptor? = none ↔
    p.Lost t directory (componentName (Project.stem directory)) := by
  unfold outcome Outcome.descriptor? describe readDemo Lost
  cases hsource : source? t directory (componentName (Project.stem directory)) with
  | none => simp [hsource, Except.toOption]
  | some source =>
    cases htext : t.text? source with
    | none => simp [hsource, htext, Except.toOption]
    | some text =>
      cases hdemo : p.demo? t directory (componentName (Project.stem directory)) with
      | none => simp [hsource, htext, hdemo, Except.toOption]
      | some demo => cases hpage : t.text? demo <;> simp [hsource, htext, hdemo, hpage, Except.toOption]

/-- The descriptor of the component in an entry of a directory. -/
def own (p : Project) (t : FileTree) (base : Path) (name : String) : Option Descriptor :=
  (p.outcome t (base.entry name)).descriptor?

/-! ## All directories -/

lemma filterMap_middle {α β : Type} (f : α → Option β) (before : List α) (a : α) (after : List α) :
    (before ++ a :: after).filterMap f = before.filterMap f ++ ((f a).toList ++ after.filterMap f) := by
  rw [List.filterMap_append, List.filterMap_cons]
  cases f a <;> rfl

lemma gather_fst (p : Project) (t : FileTree) (time : String) : (p.gather t time).1 =
    (p.directories t).map fun directories =>
      Catalog.ofComponents time (directories.filterMap fun directory => (p.outcome t directory).descriptor?) := by
  unfold gather
  cases p.directories t with
  | error e => rfl
  | ok directories => simp [Except.map, List.filterMap_map]

lemma directories_of_listed (hplace : t.locate? p.componentsDir = some place)
    (hdirectory : t.isDirectoryAt place = true) (hbase : p.componentsDir.listed? = some base) :
    p.directories t = .ok ((t.subdirectories place).map base.entry) := by
  simp only [directories, hplace, hdirectory, hbase, if_true, Option.elim_some, subdirectories]

lemma gather_of_listed (hplace : t.locate? p.componentsDir = some place)
    (hdirectory : t.isDirectoryAt place = true) (hbase : p.componentsDir.listed? = some base) (time : String) :
    (p.gather t time).1 =
      .ok (Catalog.ofComponents time ((t.subdirectories place).filterMap (p.own t base))) := by
  have hown : (fun directory => (p.outcome t directory).descriptor?) ∘ base.entry = p.own t base := by
    funext name
    rw [Function.comp_apply, own]
  rw [gather_fst, directories_of_listed hplace hdirectory hbase, Except.map, List.filterMap_map, hown]

lemma gather_of_unlisted (hplace : t.locate? p.componentsDir = some place)
    (hdirectory : t.isDirectoryAt place = true) (hbase : p.componentsDir.listed? = none) (time : String) :
    (p.gather t time).1 = .ok (Catalog.ofComponents time []) := by
  have hdirectories : p.directories t = .ok [] := by
    simp only [directories, hplace, hdirectory, hbase, if_true, Option.elim_none]
  rw [gather_fst, hdirectories, Except.map, List.filterMap_nil]

lemma gather_error_iff (e : CatalogError) : (p.gather t time).1 = .error e ↔
    t.isDirectory p.componentsDir = false ∧ e = .noComponents p.componentsDir := by
  have hmissing : t.isDirectory p.componentsDir =
      ((t.locate? p.componentsDir).map t.isDirectoryAt).getD false := by
    rw [FileTree.isDirectory, FileTree.find?]
    cases t.locate? p.componentsDir <;> rfl
  rw [gather_fst, hmissing, directories]
  split
  · next hnone => simp [hnone, Except.map, eq_comm]
  · next place hplace =>
    split_ifs with hdirectory
    · simp [hplace, hdirectory, Except.map]
    · simp [hplace, hdirectory, Except.map, eq_comm]

/-- What a sub-directory comes to is the same whatever changes in the one next to it. -/
lemma own_of_sibling (hwell : t.WellFormed) (hchange : ChangedInside (place ++ [name]) t t')
    (hreach : t.reach? base = some place) (hreach' : t'.reach? base = some place)
    (hdemos : t'.reach? p.demosDir = t.reach? p.demosDir)
    (houtside : ¬ place ++ [name] <+: t.goal p.demosDir) {other : String} (hother : other ∈ t.subdirectories place)
    (hne : other ≠ name) : p.own t' base other = p.own t base other := by
  obtain ⟨hs, hplace⟩ := hwell.of_mem_subdirectories hother
  have hentry : t.reach? (base.entry other) = some (place ++ [other]) := reach?_entry_name hs hreach hplace
  have hentry' : t'.reach? (base.entry other) = some (place ++ [other]) :=
    reach?_entry_name hs hreach' (hchange.parent.trans hplace)
  have houtcome : p.outcome t' (base.entry other) = p.outcome t (base.entry other) := by
    refine outcome_congr (fun s hs => ?_) (fun s hs => ?_)
    · refine bytes?_join_congr hs (hentry'.trans hentry.symm) (fun l hl => ?_) (fun l hl _ => ?_)
      · obtain rfl : place ++ [other] = l := Option.some.inj (hentry.symm.trans hl)
        have hsame := hchange.sibling hne []
        rw [List.append_nil] at hsame
        exact isDirectoryAt_congr hsame
      · obtain rfl : place ++ [other] = l := Option.some.inj (hentry.symm.trans hl)
        exact fileAt?_congr (hchange.sibling hne [s])
    · refine bytes?_join_congr hs hdemos (fun l hl => ?_) (fun l hl _ => ?_)
      · obtain rfl := (reach?_eq_some_iff.1 hl).2
        refine isDirectoryAt_congr (hchange.frame _ fun hinside => houtside hinside.1)
      · obtain rfl := (reach?_eq_some_iff.1 hl).2
        exact fileAt?_congr (hchange.elsewhere houtside s)
  rw [own, own, houtcome]

/-- A catalog that holds what every sub-directory of a place comes to on its own. -/
structure GathersEach (p : Project) (t : FileTree) (time : String) (place : Location) (base : Path)
    (catalog : Catalog) : Prop where
  gathered : (p.gather t time).1 = .ok catalog
  components : catalog.components = (t.subdirectories place).filterMap (p.own t base)
  total : catalog.totalComponents = catalog.components.length
  ordered : (t.subdirectories place).SortedLT
  every : ∀ name, name ∈ t.subdirectories place ↔ t.isDirectoryAt (place ++ [name]) = true
  found : ∀ name ∈ t.subdirectories place, t.reach? (base.entry name) = some (place ++ [name])
  lost : ∀ name, p.own t base name = none ↔
    p.Lost t (base.entry name) (componentName (Project.stem (base.entry name)))
  /-- Only its own files and the demo pages count. -/
  alone : ∀ name t',
    (∀ s, IsName s → t'.bytes? ((base.entry name).join ⟨s⟩) = t.bytes? ((base.entry name).join ⟨s⟩)) →
    (∀ s, IsName s → t'.bytes? (p.demosDir.join ⟨s⟩) = t.bytes? (p.demosDir.join ⟨s⟩)) →
    p.own t' base name = p.own t base name
  /-- Whatever changes inside one of them, the others stay. -/
  apart : ∀ name t' time', ChangedInside (place ++ [name]) t t' →
    (∀ l ∈ t.way p.componentsDir ++ t.way p.demosDir, place ++ [name] <+: l →
      t'.isDirectoryAt l = t.isDirectoryAt l) →
    ¬ place ++ [name] <+: t.goal p.demosDir → ∃ before after catalog',
      t.subdirectories place = before ++ name :: after ∧ (p.gather t' time').1 = .ok catalog' ∧
      catalog.components =
        before.filterMap (p.own t base) ++ ((p.own t base name).toList ++ after.filterMap (p.own t base)) ∧
      catalog'.components =
        before.filterMap (p.own t base) ++ ((p.own t' base name).toList ++ after.filterMap (p.own t base))

lemma gathersEach (hwell : t.WellFormed) (hplace : t.locate? p.componentsDir = some place)
    (hdirectory : t.isDirectoryAt place = true) (hbase : p.componentsDir.listed? = some base) (time : String) :
    GathersEach p t time place base
      (Catalog.ofComponents time ((t.subdirectories place).filterMap (p.own t base))) := by
  have hreach : t.reach? p.componentsDir = some place := by
    rw [locate?_eq] at hplace
    split_ifs at hplace
    exact hplace
  have hlisted : t.reach? base = some place := (reach?_listed hbase t).trans hreach
  refine ⟨gather_of_listed hplace hdirectory hbase time, rfl, rfl, sorted_subdirectories t place,
    fun name => mem_subdirectories_iff, ?_, fun name => descriptor?_eq_none_iff, ?_, ?_⟩
  · intro name hname
    obtain ⟨hs, -⟩ := hwell.of_mem_subdirectories hname
    exact reach?_entry_name hs hlisted hdirectory
  · intro name t' hsource hdemo
    rw [own, own, outcome_congr hsource hdemo]
  · intro name t' time' hchange hways houtside
    -- both paths lead to where they led, so that only the outcome in the changed directory can differ
    have hsame : ∀ l ∈ t.way p.componentsDir ++ t.way p.demosDir, t'.isDirectoryAt l = t.isDirectoryAt l := by
      intro l hl
      by_cases hinside : place ++ [name] <+: l
      · exact hways l hl hinside
      · exact isDirectoryAt_congr (hchange.frame l fun h => hinside h.1)
    obtain ⟨hcomponents, hdemos⟩ := List.forall_mem_append.1 hsame
    have hplace' : t'.locate? p.componentsDir = some place := by
      rw [locate?_eq, reach?_congr hchange.start hcomponents, ← locate?_eq, hplace]
    have hlisted' : t'.reach? base = some place := by
      rw [reach?_listed hbase t', reach?_congr hchange.start hcomponents, hreach]
    have hdirectory' : t'.isDirectoryAt place = true := hchange.parent.trans hdirectory
    obtain ⟨before, after, hsplit⟩ := List.append_of_mem (mem_subdirectories_iff.2 hchange.directory)
    have hsibling : ∀ other ∈ before ++ after, p.own t' base other = p.own t base other := by
      intro other hother
      have hmem : other ∈ t.subdirectories place := by
        rw [hsplit]
        rcases List.mem_append.1 hother with h | h <;> simp [h]
      have hne : other ≠ name := by
        rintro rfl
        have hdistinct := (sorted_subdirectories t place).nodup
        rw [hsplit] at hdistinct
        exact (List.nodup_middle.1 hdistinct).notMem hother
      exact own_of_sibling hwell hchange hlisted hlisted' (reach?_congr hchange.start hdemos) houtside hmem hne
    obtain ⟨hbefore, hafter⟩ := List.forall_mem_append.1 hsibling
    refine ⟨before, after, _, hsplit, gather_of_listed hplace' hdirectory' hbase time', ?_, ?_⟩
    · rw [Catalog.ofComponents, hsplit, filterMap_middle]
    · rw [Catalog.ofComponents, hchange.subdirectories, hsplit, filterMap_middle, List.filterMap_congr hbefore,
        List.filterMap_congr hafter]

/-- Gathering fails only without a components directory. Otherwise, if that can be listed, the catalog holds what
every sub-directory comes to on its own. -/
theorem gathers_each (p : Project) (t : FileTree) (time : String) (hwell : t.WellFormed) :
    (∀ e, (p.gather t time).1 = .error e ↔
      t.isDirectory p.componentsDir = false ∧ e = .noComponents p.componentsDir) ∧
    (p.componentsDir.Listable → t.isDirectory p.componentsDir = true → ∃ place base catalog,
      t.locate? p.componentsDir = some place ∧ p.componentsDir.listed? = some base ∧
      GathersEach p t time place base catalog) := by
  refine ⟨fun e => gather_error_iff e, fun hlistable hdirectory => ?_⟩
  obtain ⟨base, hbase⟩ := Option.isSome_iff_exists.1 (Path.isSome_listed?_iff.2 hlistable)
  rw [FileTree.isDirectory, beq_iff_eq] at hdirectory
  obtain ⟨place, hplace, hentry⟩ := Option.bind_eq_some_iff.1 hdirectory
  exact ⟨place, base, _, hplace, hbase,
    gathersEach hwell hplace (isDirectoryAt_eq_true_iff.2 hentry) hbase time⟩

/-- Components of which one has the given source. -/
def twoComponents (source : List UInt8) : FileTree where
  entries := [(["ui"], .directory), (["ui", "alpha"], .directory), (["ui", "alpha", "Alpha.jsx"], .file source),
    (["ui", "beta"], .directory), (["ui", "beta", "index.js"], .file [])]

def uiProject : Project where
  root := ⟨"."⟩
  componentsDir := ⟨"ui"⟩
  demosDir := ⟨"pages"⟩
  packageName := "@ui"
  compounds := []

lemma wellFormed_twoComponents (source : List UInt8) : (twoComponents source).WellFormed := by
  apply wellFormed_of_entries
  simp only [twoComponents, List.forall_mem_cons]
  refine ⟨⟨by decide, rfl⟩, ⟨by decide, rfl⟩, ⟨by decide, rfl⟩, ⟨by decide, rfl⟩, ⟨by decide, rfl⟩, by simp⟩

lemma subdirectories_twoComponents (source : List UInt8) :
    (twoComponents source).subdirectories ["ui"] = ["alpha", "beta"] := by
  have hlt : "alpha" < "beta" := by rw [String.lt_iff_toList_lt]; decide
  refine subdirectories_pair hlt rfl rfl fun name halpha hbeta => ?_
  simp [isDirectoryAt, entry?, twoComponents, List.lookup_cons, beq_false_of_ne halpha, beq_false_of_ne hbeta]

lemma changedInside_twoComponents (source source' : List UInt8) :
    ChangedInside ["ui", "alpha"] (twoComponents source) (twoComponents source') where
  directory := rfl
  frame l hl := by
    have hother : l ≠ ["ui", "alpha", "Alpha.jsx"] := by
      rintro rfl
      exact hl (by decide)
    simp [ entry?, twoComponents, List.lookup_cons, beq_false_of_ne hother]
  start := rfl

/-- A source that is no text keeps its own component out of the catalog, and no other. -/
theorem gathers_each_of_unreadable :
    (twoComponents [255]).WellFormed ∧ uiProject.componentsDir.Listable ∧
    (twoComponents [255]).isDirectory uiProject.componentsDir = true ∧ ∃ catalog repaired d,
      (uiProject.gather (twoComponents [255]) "now").1 = .ok catalog ∧
      (uiProject.gather (twoComponents []) "later").1 = .ok repaired ∧
      uiProject.own (twoComponents [255]) ⟨"ui"⟩ "alpha" = none ∧
      uiProject.own (twoComponents [255]) ⟨"ui"⟩ "beta" = some d ∧ catalog.components = [d] ∧
      repaired.components = (uiProject.own (twoComponents []) ⟨"ui"⟩ "alpha").toList ++ [d] := by
  have hwell := wellFormed_twoComponents [255]
  have hlistable : uiProject.componentsDir.Listable := by decide
  have hdirectory : (twoComponents [255]).isDirectory uiProject.componentsDir = true := by decide
  obtain ⟨place, base, catalog, hplace, hbase, heach⟩ :=
    (gathers_each uiProject (twoComponents [255]) "now" hwell).2 hlistable hdirectory
  obtain rfl : ["ui"] = place := Option.some.inj ((by decide : _ = some ["ui"]).symm.trans hplace)
  obtain rfl : ⟨"ui"⟩ = base := Option.some.inj ((by decide : _ = some ⟨"ui"⟩).symm.trans hbase)
  have hways : ∀ l ∈ (twoComponents [255]).way uiProject.componentsDir ++ (twoComponents [255]).way uiProject.demosDir,
      ["ui"] ++ ["alpha"] <+: l → (twoComponents []).isDirectoryAt l = (twoComponents [255]).isDirectoryAt l := by
    decide
  obtain ⟨before, after, repaired, hsplit, hgathered, -, hrepaired⟩ :=
    heach.apart "alpha" (twoComponents []) "later" (changedInside_twoComponents [255] []) hways (by decide)
  have halpha : uiProject.own (twoComponents [255]) ⟨"ui"⟩ "alpha" = none := by
    refine (heach.lost "alpha").2 (.inr (.inl ⟨⟨"ui/alpha/Alpha.jsx"⟩, by decide, by decide⟩))
  have hbeta : uiProject.own (twoComponents [255]) ⟨"ui"⟩ "beta" ≠ none := by
    have hname : componentName (Project.stem (Path.entry ⟨"ui"⟩ "beta")) = "Beta" := by decide
    have hsource : source? (twoComponents [255]) (Path.entry ⟨"ui"⟩ "beta") "Beta" = some ⟨"ui/beta/index.js"⟩ := by
      decide
    have htext : (twoComponents [255]).text? ⟨"ui/beta/index.js"⟩ = some "" := by decide
    have hdemo : uiProject.demo? (twoComponents [255]) (Path.entry ⟨"ui"⟩ "beta") "Beta" = none := by decide
    rw [Ne, heach.lost, hname]
    simp [Lost, hsource, htext, hdemo]
  obtain ⟨d, hd⟩ := Option.ne_none_iff_exists'.1 hbeta
  have hcomponents := heach.components
  rw [subdirectories_twoComponents] at hsplit hcomponents
  obtain ⟨rfl, rfl⟩ : before = [] ∧ after = ["beta"] := by
    rcases List.cons_eq_append_iff.1 hsplit with ⟨rfl, hafter⟩ | ⟨rest, -, hrest⟩
    · exact ⟨rfl, (List.cons.inj hafter).2⟩
    · simp [List.cons_eq_append_iff] at hrest
  refine ⟨hwell, hlistable, hdirectory, catalog, repaired, d, heach.gathered, hgathered, halpha, hd, ?_, ?_⟩
  · simpa [List.filterMap_cons, halpha, hd] using hcomponents
  · simpa [List.filterMap_cons, hd] using hrepaired

/-- A directory that can be listed is not, if its path has an empty piece behind a dot. -/
theorem unlisted_of_trailing_slash :
    let t : FileTree := { entries := [(["alpha"], .directory), (["alpha", "Alpha.jsx"], .file [])] }
    let p := ofConfig { componentsDir := ⟨"./"⟩ }
    t.isDirectory p.componentsDir = true ∧ t.isDirectoryAt ["alpha"] = true ∧
    (p.outcome t ⟨"././alpha"⟩).descriptor? ≠ none ∧ (p.gather t "now").1 = .ok (Catalog.ofComponents "now" []) := by
  intro t p
  have hname : componentName (Project.stem ⟨"././alpha"⟩) = "Alpha" := by decide
  have hsource : source? t ⟨"././alpha"⟩ "Alpha" = some ⟨"././alpha/Alpha.jsx"⟩ := by decide
  have htext : t.text? ⟨"././alpha/Alpha.jsx"⟩ = some "" := by decide
  have hdemo : p.demo? t ⟨"././alpha"⟩ "Alpha" = none := by decide
  have hlisted : p.componentsDir.listed? = none := by decide
  refine ⟨by decide, by decide, ?_, ?_⟩
  · rw [Ne, descriptor?_eq_none_iff, hname]
    simp [Lost, hsource, htext, hdemo]
  · have hplace : t.locate? p.componentsDir = some [] := by decide
    exact gather_of_unlisted hplace (by decide) hlisted "now"

end Project

end UiCatalog
