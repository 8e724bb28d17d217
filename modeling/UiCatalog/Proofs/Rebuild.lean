import UiCatalog.CommandLine
import UiCatalog.Proofs.Gathering
import UiCatalog.Proofs.Writing

/-!
# Building a catalog again

A build changes the file of the catalog and makes the directories on its way, and nothing else. When the file is
apart from what the catalog is gathered from, a second build finds what the first one found.
-/
namespace UiCatalog

open Text FileTree

variable {t t' : FileTree} {path : Path} {target l place : Location} {among : List Location} {s time : String}

/-! ## Keeping a catalog -/

namespace Catalog

variable {catalog catalog' : Catalog}

lemma rewrites_makeParent (t : FileTree) (path : Path) (target : Location) :
    Rewrites (t.way path) target t (makeParent t path).1 := by
  unfold makeParent
  split
  · exact .refl _ _ _
  · next parent hparent =>
    obtain ⟨hparent, hne⟩ := Option.filter_eq_some_iff.1 hparent
    exact (rewrites_makeDirectories t parent target).mono (way_parent hparent (by simpa using hne) t)

lemma makeParent_again {t₁ : FileTree} (h : makeParent t path = (t₁, none)) (hwrites : Rewrites among target t₁ t') :
    makeParent t' path = (t', none) := by
  unfold makeParent at h ⊢
  split at h
  · rfl
  · next parent hparent =>
    rw [Prod.mk.injEq] at h
    obtain ⟨rfl, hmade⟩ := h
    replace hmade : (t.makeDirectories parent).2 = true := by simpa using hmade
    dsimp only
    rw [makeDirectories_again hmade hwrites]
    rfl

lemma save_of_writable {t₁ : FileTree} (hparent : makeParent t path = (t₁, none))
    (hwritable : t₁.writable? path = some l) (catalog : Catalog) : catalog.save path t =
      (t₁.put l (.file (Utf8.encode catalog.fileText)), .ok (), [catalog.savedEvent path]) := by
  simp only [save, hparent, write?, hwritable, Option.map_some]

/-- Either a catalog is written once its directories are there, or they are all that may be new. -/
lemma save_cases (catalog : Catalog) (path : Path) (t : FileTree) :
    (∃ t₁ l, makeParent t path = (t₁, none) ∧ t₁.writable? path = some l ∧
      catalog.save path t = (t₁.put l (.file (Utf8.encode catalog.fileText)), .ok (), [catalog.savedEvent path])) ∨
    ∃ e, catalog.save path t = ((makeParent t path).1, .error e, []) := by
  rcases hparent : makeParent t path with ⟨t₁, _ | parent⟩
  · cases hwritable : t₁.writable? path with
    | none => exact .inr ⟨.unwritable path, by simp only [save, hparent, write?, hwritable, Option.map_none]⟩
    | some l => exact .inl ⟨t₁, l, rfl, hwritable, save_of_writable hparent hwritable catalog⟩
  · exact .inr ⟨.unwritable parent, by simp only [save, hparent]⟩

lemma rewrites_save (catalog : Catalog) (path : Path) (t : FileTree) :
    Rewrites (t.way path) (t.goal path) t (catalog.save path t).1 := by
  have hmade := rewrites_makeParent t path (t.goal path)
  rcases save_cases catalog path t with ⟨t₁, l, hparent, hwritable, hsave⟩ | ⟨e, hsave⟩
  · obtain ⟨place, s, rfl, hs, -, -, hplace, hfree, hgoal⟩ := exists_of_writable hwritable
    rw [hparent] at hmade
    rw [goal_congr hmade.start] at hgoal
    rw [hgoal] at hmade ⊢
    rw [hsave]
    exact hmade.trans (rewrites_file hplace hs hfree _ _)
  · rw [hsave]
    exact hmade

/-- A catalog that has been kept can be read, and replaced by any other. -/
lemma save_ok (h : (catalog.save path t).2.1 = .ok ()) :
    (catalog.save path t).1.bytes? path = some (Utf8.encode catalog.fileText) ∧
      ∀ catalog' : Catalog, (catalog'.save path (catalog.save path t).1).2.1 = .ok () := by
  rcases save_cases catalog path t with ⟨t₁, l, hparent, hwritable, hsave⟩ | ⟨e, hsave⟩
  · obtain ⟨place, s, hl, hs, hfollow, hway, hplace, hfree, hgoal⟩ := exists_of_writable hwritable
    have hwrites := rewrites_file hplace hs (hl ▸ hfree) (t₁.way path) (Utf8.encode catalog.fileText)
    rw [← hl] at hwrites
    have hentry : FileTree.entry? (t₁.put l (.file (Utf8.encode catalog.fileText))) l =
        some (.file (Utf8.encode catalog.fileText)) := by
      rw [entry?_put (by simp [hl]), if_pos rfl]
    have hreach : (t₁.put l (.file (Utf8.encode catalog.fileText))).reach? path = some l :=
      reach?_eq_some_iff.2 ⟨fun l hl => hwrites.isDirectoryAt (hway l hl), hgoal⟩
    rw [hsave]
    constructor
    · rw [bytes?_eq, if_pos hfollow, hreach, Option.bind_some, fileAt?, hentry]
    · intro catalog'
      have hfile : (t₁.put l (.file (Utf8.encode catalog.fileText))).isDirectoryAt l = false := by
        rw [isDirectoryAt, hentry]
        rfl
      rw [save_of_writable (makeParent_again hparent hwrites) (writable?_again hwritable hwrites hfile)]
  · rw [hsave] at h
    cases h

end Catalog

namespace Project

variable {p : Project} {catalog : Catalog} {base : Path}

/-- A project is apart from a file, and is not found by directories that are made for it. -/
structure Apart (p : Project) (t : FileTree) (among : List Location) (target : Location) : Prop where
  components : ¬ t.goal p.componentsDir <+: target
  demos : ¬ t.goal p.demosDir <+: target
  kept : t.isDirectoryAt (t.goal p.demosDir) = true →
    ∀ l ∈ t.way p.demosDir, l ∈ among → t.isDirectoryAt l = true

/-! ## Gathering after a rewriting -/

lemma fileAt?_of_not_directory (hwell : t.WellFormed) (h : t.isDirectoryAt l = false) (s : String) :
    t.fileAt? (l ++ [s]) = none := by
  have hnone : t.entry? (l ++ [s]) = none := by
    by_contra hsome
    rw [hwell.rooted l s hsome] at h
    cases h
  rw [fileAt?, hnone]

/-- Directories on the way to a directory are not new, if that is not to be found by new ones only. -/
lemma isDirectoryAt_of_rewrites (hwrites : Rewrites among target t t')
    (hkept : l ∈ among → t.isDirectoryAt l = true) : t'.isDirectoryAt l = t.isDirectoryAt l := by
  rw [Bool.eq_iff_iff]
  refine ⟨fun h => ?_, hwrites.isDirectoryAt⟩
  rcases hwrites.entries l with hsame | ⟨hmem, -, -⟩ | ⟨-, -, bytes, hfile⟩
  · rwa [isDirectoryAt, hsame] at h
  · exact hkept hmem
  · rw [isDirectoryAt, hfile] at h
    cases h

/-- A rewriting leaves the files of a directory, if it is neither above the rewritten file nor to be found by new
directories only. -/
lemma bytes?_of_rewrites (hwell : t.WellFormed) (hwrites : Rewrites among target t t')
    (houtside : ¬ t.goal path <+: target)
    (hkept : t.isDirectoryAt (t.goal path) = true → ∀ l ∈ t.way path, l ∈ among → t.isDirectoryAt l = true)
    (hs : IsName s) : t'.bytes? (path.join ⟨s⟩) = t.bytes? (path.join ⟨s⟩) := by
  have hfile : t'.fileAt? (t.goal path ++ [s]) = t.fileAt? (t.goal path ++ [s]) := by
    apply hwrites.fileAt?
    rintro rfl
    exact houtside (List.prefix_append _ _)
  by_cases hgoal : t.isDirectoryAt (t.goal path) = true
  · refine bytes?_join_congr hs (reach?_congr hwrites.start fun l hl => ?_) (fun l hl => ?_) (fun l hl _ => ?_)
    · exact isDirectoryAt_of_rewrites hwrites (hkept hgoal l hl)
    · obtain rfl := (reach?_eq_some_iff.1 hl).2
      rw [hgoal, hwrites.isDirectoryAt hgoal]
    · obtain rfl := (reach?_eq_some_iff.1 hl).2
      exact hfile
  · -- a directory that is new is empty
    rw [Bool.not_eq_true] at hgoal
    rw [fileAt?_of_not_directory hwell hgoal] at hfile
    rw [← goal_congr hwrites.start] at hfile
    rw [bytes?_join_eq_none hs fun _ => hfile, bytes?_join_eq_none hs fun hdirectory => ?_]
    rw [hgoal] at hdirectory
    cases hdirectory

lemma own_of_not_directory (hs : IsName s) (hreach : t.reach? base = some place)
    (hplace : t.isDirectoryAt place = true) (h : t.isDirectoryAt (place ++ [s]) = false) : p.own t base s = none := by
  have hgoal : t.goal (base.entry s) = place ++ [s] := (reach?_eq_some_iff.1 (reach?_entry_name hs hreach hplace)).2
  rw [own, descriptor?_eq_none_iff]
  refine .inl ?_
  rw [source?, List.find?_eq_none]
  intro file hfile
  obtain ⟨name, hname, rfl⟩ := exists_name_of_source hfile
  rw [isFile, bytes?_join_eq_none hname fun hdirectory => ?_]
  · exact Bool.false_ne_true
  · rw [hgoal, h] at hdirectory
    cases hdirectory

/-- A rewriting apart from a project leaves what every directory comes to. -/
lemma own_of_rewrites (hwell : t.WellFormed) (hwrites : Rewrites among target t t')
    (hreach : t.reach? base = some place) (hplace : t.isDirectoryAt place = true) (houtside : ¬ place <+: target)
    (hapart : p.Apart t among target) (hs : IsName s) : p.own t' base s = p.own t base s := by
  obtain ⟨hway, hgoal⟩ := reach?_eq_some_iff.1 (reach?_entry_name hs hreach hplace)
  have hentry : ¬ t.goal (base.entry s) <+: target := by
    rw [hgoal]
    exact fun hbelow => houtside ((List.prefix_append _ _).trans hbelow)
  have houtcome : p.outcome t' (base.entry s) = p.outcome t (base.entry s) := by
    apply outcome_congr
    · intro name hname
      exact bytes?_of_rewrites hwell hwrites hentry (fun _ l hl _ => hway l hl) hname
    · intro name hname
      exact bytes?_of_rewrites hwell hwrites hapart.demos hapart.kept hname
  rw [own, own, houtcome]

/-- After a rewriting apart from a project, the same components are found. -/
lemma components_of_rewrites (hwell : t.WellFormed) (hwrites : Rewrites among target t t')
    (hreach : t.reach? base = some place) (hplace : t.isDirectoryAt place = true) (houtside : ¬ place <+: target)
    (hapart : p.Apart t among target) :
    (t'.subdirectories place).filterMap (p.own t' base) = (t.subdirectories place).filterMap (p.own t base) := by
  have hold : t.subdirectories place = (t'.subdirectories place).filter fun n => t.isDirectoryAt (place ++ [n]) := by
    have hsorted := ((sorted_subdirectories t' place).pairwise.filter fun n => t.isDirectoryAt (place ++ [n])).sortedLT
    refine (sorted_subdirectories t place).eq_of_mem_iff hsorted fun n => ?_
    rw [List.mem_filter, mem_subdirectories_iff, mem_subdirectories_iff, iff_and_self]
    exact hwrites.isDirectoryAt
  -- a directory that is new among the others was none before, and so came to nothing
  rw [hold, List.filterMap_filter]
  refine List.filterMap_congr fun n hn => ?_
  obtain ⟨hs, -⟩ := (hwrites.wellFormed hwell).of_mem_subdirectories hn
  rw [own_of_rewrites hwell hwrites hreach hplace houtside hapart hs]
  split_ifs with hdirectory
  · rfl
  · exact own_of_not_directory hs hreach hplace (by simpa using hdirectory)

/-- After a rewriting apart from a project, the same catalog is gathered. -/
lemma gather_of_rewrites (hwell : t.WellFormed) (hgather : (p.gather t time).1 = .ok catalog)
    (hwrites : Rewrites among target t t') (hapart : p.Apart t among target) (time' : String) :
    (p.gather t' time').1 = .ok { catalog with generatedAt := some time' } := by
  have hdirectory : t.isDirectory p.componentsDir = true := by
    by_contra hmissing
    rw [(gather_error_iff (.noComponents p.componentsDir)).2 ⟨by simpa using hmissing, rfl⟩] at hgather
    cases hgather
  rw [FileTree.isDirectory, beq_iff_eq] at hdirectory
  obtain ⟨place, hlocate, hentry⟩ := Option.bind_eq_some_iff.1 hdirectory
  have hplace : t.isDirectoryAt place = true := isDirectoryAt_eq_true_iff.2 hentry
  have hlocate' := hwrites.locate? hlocate
  have hplace' := hwrites.isDirectoryAt hplace
  cases hbase : p.componentsDir.listed? with
  | none =>
    rw [gather_of_unlisted hlocate hplace hbase] at hgather
    obtain rfl := Except.ok.inj hgather
    exact gather_of_unlisted hlocate' hplace' hbase time'
  | some base =>
    rw [gather_of_listed hlocate hplace hbase] at hgather
    obtain rfl := Except.ok.inj hgather
    have hreach : t.reach? p.componentsDir = some place := by
      rw [locate?_eq] at hlocate
      split_ifs at hlocate
      exact hlocate
    have houtside : ¬ place <+: target := (reach?_eq_some_iff.1 hreach).2 ▸ hapart.components
    have hlisted : t.reach? base = some place := (reach?_listed hbase t).trans hreach
    have hcomponents := components_of_rewrites hwell hwrites hlisted hplace houtside hapart
    rw [gather_of_listed hlocate' hplace' hbase, hcomponents]
    rfl

end Project

namespace CommandLine

/-! ## The command -/

lemma build_cases (c : Config) (t : FileTree) (time : String) :
    (∃ e, ((Project.ofConfig c).gather t time).1 = .error e ∧ (buildCatalog c t time).ending = .failed ∧
      (buildCatalog c t time).tree = t) ∨
    ∃ catalog, ((Project.ofConfig c).gather t time).1 = .ok catalog ∧
      (buildCatalog c t time).tree = (catalog.save c.catalogFile t).1 ∧
      ((buildCatalog c t time).ending = .succeeded ↔ (catalog.save c.catalogFile t).2.1 = .ok ()) := by
  unfold buildCatalog
  rcases (Project.ofConfig c).gather t time with ⟨e | catalog, events⟩
  · exact .inl ⟨e, rfl, rfl, rfl⟩
  · refine .inr ⟨catalog, rfl, ?_⟩
    dsimp only
    rcases catalog.save c.catalogFile t with ⟨t', e | ⟨⟩, saved⟩
    · exact ⟨rfl, by simp⟩
    · exact ⟨rfl, by simp⟩

/--
A build that cannot gather a catalog changes nothing. Otherwise only the file of the catalog and new directories on
its way may differ. A build that succeeds leaves what it has gathered in the file. Where the project is apart from
the file, a second build then leaves the same with the time of its own.
-/
theorem build_repeats (c : Config) (t : FileTree) (time : String) :
    (∀ e, ((Project.ofConfig c).gather t time).1 = .error e →
      (buildCatalog c t time).ending = .failed ∧ (buildCatalog c t time).tree = t) ∧
    Rewrites (t.way c.catalogFile) (t.goal c.catalogFile) t (buildCatalog c t time).tree ∧
    ((buildCatalog c t time).ending = .succeeded → ∃ catalog,
      ((Project.ofConfig c).gather t time).1 = .ok catalog ∧
      (buildCatalog c t time).tree.bytes? c.catalogFile = some (Utf8.encode catalog.fileText) ∧
      (t.WellFormed → (Project.ofConfig c).Apart t (t.way c.catalogFile) (t.goal c.catalogFile) → ∀ later,
        (buildCatalog c (buildCatalog c t time).tree later).ending = .succeeded ∧
        (buildCatalog c (buildCatalog c t time).tree later).tree.bytes? c.catalogFile =
          some (Utf8.encode { catalog with generatedAt := some later }.fileText))) := by
  rcases build_cases c t time with ⟨e, hgather, hending, htree⟩ | ⟨catalog, hgather, htree, hending⟩
  · refine ⟨fun _ _ => ⟨hending, htree⟩, ?_, fun hsucceeded => ?_⟩
    · rw [htree]
      exact .refl _ _ _
    · rw [hending] at hsucceeded
      cases hsucceeded
  · have hwrites := Catalog.rewrites_save catalog c.catalogFile t
    refine ⟨fun e herror => ?_, htree ▸ hwrites, fun hsucceeded => ?_⟩
    · rw [hgather] at herror
      cases herror
    · obtain ⟨hbytes, hagain⟩ := Catalog.save_ok (hending.1 hsucceeded)
      rw [htree]
      refine ⟨catalog, hgather, hbytes, fun hwell hapart later => ?_⟩
      have hlater := Project.gather_of_rewrites hwell hgather hwrites hapart later
      rcases build_cases c (catalog.save c.catalogFile t).1 later with
        ⟨e, herror, -, -⟩ | ⟨catalog', hgather', htree', hending'⟩
      · rw [hlater] at herror
        cases herror
      · obtain rfl : { catalog with generatedAt := some later } = catalog' :=
          Except.ok.inj (hlater.symm.trans hgather')
        have hsaved := hagain { catalog with generatedAt := some later }
        rw [htree']
        exact ⟨hending'.2 hsaved, (Catalog.save_ok hsaved).1⟩

/-- A build is a success when its catalog can be gathered and its file can be written. -/
lemma build_succeeds {c : Config} {t t₁ : FileTree} {catalog : Catalog} {l : Location}
    (hgather : ((Project.ofConfig c).gather t time).1 = .ok catalog)
    (hparent : Catalog.makeParent t c.catalogFile = (t₁, none)) (hwritable : t₁.writable? c.catalogFile = some l) :
    (buildCatalog c t time).ending = .succeeded ∧
      (buildCatalog c t time).tree = t₁.put l (.file (Utf8.encode catalog.fileText)) ∧
      (buildCatalog c t time).tree.bytes? c.catalogFile = some (Utf8.encode catalog.fileText) := by
  have hsave := Catalog.save_of_writable hparent hwritable catalog
  rcases build_cases c t time with ⟨e, herror, -, -⟩ | ⟨catalog', hgather', htree, hending⟩
  · rw [hgather] at herror
    cases herror
  · obtain rfl : catalog = catalog' := Except.ok.inj (hgather.symm.trans hgather')
    have hok : (catalog.save c.catalogFile t).2.1 = .ok () := by rw [hsave]
    refine ⟨hending.2 hok, ?_, ?_⟩
    · rw [htree, hsave]
    · rw [htree]
      exact (Catalog.save_ok hok).1

/-- A configuration with a directory for the catalog alone. -/
def outConfig : Config := { componentsDir := ⟨"ui"⟩, demosDir := ⟨"pages"⟩, catalogPath := ⟨"out/c.json"⟩ }

/-- The first build makes a directory, and the second one does not. -/
theorem build_repeats_of_new_directory :
    let t := Project.twoComponents []
    (buildCatalog outConfig t "now").ending = .succeeded ∧ t.WellFormed ∧
    (Project.ofConfig outConfig).Apart t (t.way outConfig.catalogFile) (t.goal outConfig.catalogFile) ∧
    ∃ catalog, ((Project.ofConfig outConfig).gather t "now").1 = .ok catalog ∧
      (buildCatalog outConfig (buildCatalog outConfig t "now").tree "later").tree.bytes? outConfig.catalogFile =
        some (Utf8.encode { catalog with generatedAt := some "later" }.fileText) := by
  intro t
  have hlocate : t.locate? (Project.ofConfig outConfig).componentsDir = some ["ui"] := by decide
  have hbase : (Project.ofConfig outConfig).componentsDir.listed? = some ⟨"ui"⟩ := by decide
  have hgather := Project.gather_of_listed hlocate (by decide) hbase "now"
  have hparent : Catalog.makeParent t outConfig.catalogFile = (t.put ["out"] .directory, none) := rfl
  have hwritable : (t.put ["out"] .directory).writable? outConfig.catalogFile = some ["out", "c.json"] := rfl
  obtain ⟨hsucceeded, -, -⟩ := build_succeeds hgather hparent hwritable
  have hwell := Project.wellFormed_twoComponents []
  have hapart : (Project.ofConfig outConfig).Apart t (t.way outConfig.catalogFile) (t.goal outConfig.catalogFile) :=
    ⟨by decide, by decide, by decide⟩
  obtain ⟨catalog, hcatalog, -, hlater⟩ := (build_repeats outConfig t "now").2.2 hsucceeded
  exact ⟨hsucceeded, hwell, hapart, catalog, hcatalog, (hlater hwell hapart "later").2⟩

/-- A configuration whose demo pages are found through the directory of the catalog. -/
def detourConfig : Config := { demosDir := ⟨"x/../pages"⟩, catalogPath := ⟨"x/out.json"⟩ }

/-- A component with a demo page that is no text. -/
def detourTree : FileTree where
  entries := [(["src"], .directory), (["src", "components"], .directory), (["src", "components", "alpha"], .directory),
    (["src", "components", "alpha", "Alpha.jsx"], .file []), (["pages"], .directory),
    (["pages", "Alpha.jsx"], .file [255])]

def detourTreeWith (bytes : List UInt8) : FileTree :=
  (detourTree.put ["x"] .directory).put ["x", "out.json"] (.file bytes)

lemma subdirectories_detourTree : detourTree.subdirectories ["src", "components"] = ["alpha"] := by
  refine subdirectories_eq (List.pairwise_singleton _ _).sortedLT fun name => ?_
  by_cases halpha : name = "alpha"
  · subst halpha
    exact iff_of_true rfl (List.mem_singleton_self _)
  · simp [isDirectoryAt, FileTree.entry?, detourTree, List.lookup_cons, halpha, beq_false_of_ne halpha]

lemma subdirectories_detourTreeWith (bytes : List UInt8) :
    (detourTreeWith bytes).subdirectories ["src", "components"] = ["alpha"] := by
  rw [← subdirectories_detourTree]
  apply subdirectories_congr
  intro name
  rw [detourTreeWith, entry?_put (by simp), entry?_put (by simp), if_neg (by simp), if_neg (by simp)]

lemma gather_detourTree : ∃ d, ((Project.ofConfig detourConfig).gather detourTree "now").1 =
    .ok (Catalog.ofComponents "now" [d]) := by
  have hlocate : detourTree.locate? (Project.ofConfig detourConfig).componentsDir = some ["src", "components"] := by
    decide
  have hbase : (Project.ofConfig detourConfig).componentsDir.listed? = some ⟨"src/components"⟩ := by decide
  have hname : componentName (Project.stem (Path.entry ⟨"src/components"⟩ "alpha")) = "Alpha" := by decide
  have hsource : Project.source? detourTree (Path.entry ⟨"src/components"⟩ "alpha") "Alpha" =
      some ⟨"src/components/alpha/Alpha.jsx"⟩ := by decide
  have htext : detourTree.text? ⟨"src/components/alpha/Alpha.jsx"⟩ = some "" := by decide
  have hdemo : (Project.ofConfig detourConfig).demo? detourTree (Path.entry ⟨"src/components"⟩ "alpha") "Alpha" =
      none := by decide
  have hown : (Project.ofConfig detourConfig).own detourTree ⟨"src/components"⟩ "alpha" ≠ none := by
    rw [Ne, Project.own, Project.descriptor?_eq_none_iff, hname]
    simp [Project.Lost, hsource, htext, hdemo]
  obtain ⟨d, hd⟩ := Option.ne_none_iff_exists'.1 hown
  refine ⟨d, ?_⟩
  rw [Project.gather_of_listed hlocate (by decide) hbase, subdirectories_detourTree]
  simp [hd]

lemma gather_detourTreeWith (bytes : List UInt8) :
    ((Project.ofConfig detourConfig).gather (detourTreeWith bytes) "later").1 =
      .ok (Catalog.ofComponents "later" []) := by
  have hlocate : (detourTreeWith bytes).locate? (Project.ofConfig detourConfig).componentsDir =
      some ["src", "components"] := rfl
  have hbase : (Project.ofConfig detourConfig).componentsDir.listed? = some ⟨"src/components"⟩ := by decide
  have hname : componentName (Project.stem (Path.entry ⟨"src/components"⟩ "alpha")) = "Alpha" := by decide
  have hdemo : (Project.ofConfig detourConfig).demo? (detourTreeWith bytes)
      (Path.entry ⟨"src/components"⟩ "alpha") "Alpha" = some ⟨"./x/../pages/Alpha.jsx"⟩ := rfl
  have htext : (detourTreeWith bytes).text? ⟨"./x/../pages/Alpha.jsx"⟩ = none := rfl
  have hown : (Project.ofConfig detourConfig).own (detourTreeWith bytes) ⟨"src/components"⟩ "alpha" = none := by
    rw [Project.own, Project.descriptor?_eq_none_iff, hname]
    exact .inr (.inr ⟨_, hdemo, htext⟩)
  rw [Project.gather_of_listed hlocate rfl hbase, subdirectories_detourTreeWith]
  simp [hown]

/-- A directory that the first build makes can lead the second one to a demo page. -/
theorem build_finds_new_page :
    let tree := (buildCatalog detourConfig detourTree "now").tree
    let file := detourTree.goal detourConfig.catalogFile
    detourTree.WellFormed ∧ ¬ detourTree.goal (Project.ofConfig detourConfig).componentsDir <+: file ∧
    ¬ detourTree.goal (Project.ofConfig detourConfig).demosDir <+: file ∧
    ∃ first second : Catalog, first.components ≠ [] ∧ second.components = [] ∧
      (buildCatalog detourConfig detourTree "now").ending = .succeeded ∧
      tree.bytes? detourConfig.catalogFile = some (Utf8.encode first.fileText) ∧
      (buildCatalog detourConfig tree "later").ending = .succeeded ∧
      (buildCatalog detourConfig tree "later").tree.bytes? detourConfig.catalogFile =
        some (Utf8.encode second.fileText) := by
  have hwell : detourTree.WellFormed := by
    apply wellFormed_of_entries
    decide
  obtain ⟨d, hgather⟩ := gather_detourTree
  have hparent : Catalog.makeParent detourTree detourConfig.catalogFile = (detourTree.put ["x"] .directory, none) := rfl
  have hwritable : (detourTree.put ["x"] .directory).writable? detourConfig.catalogFile = some ["x", "out.json"] := rfl
  obtain ⟨hsucceeded, htree, hbytes⟩ := build_succeeds hgather hparent hwritable
  have hgather' := gather_detourTreeWith (Utf8.encode (Catalog.ofComponents "now" [d]).fileText)
  rw [detourTreeWith, ← htree] at hgather'
  have hparent' : Catalog.makeParent (buildCatalog detourConfig detourTree "now").tree detourConfig.catalogFile =
      ((buildCatalog detourConfig detourTree "now").tree, none) := by
    rw [htree]
    rfl
  have hwritable' : (buildCatalog detourConfig detourTree "now").tree.writable? detourConfig.catalogFile =
      some ["x", "out.json"] := by
    rw [htree]
    rfl
  obtain ⟨hsucceeded', -, hbytes'⟩ := build_succeeds hgather' hparent' hwritable'
  exact ⟨hwell, by decide, by decide, _, _, List.cons_ne_nil d [], rfl, hsucceeded, hbytes, hsucceeded', hbytes'⟩

end CommandLine

end UiCatalog
