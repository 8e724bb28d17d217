import Mathlib.Data.List.DropRight
import UiCatalog.Catalog.File
import UiCatalog.Proofs.Walks

/-!
# What writing a file changes

A file is written after the directories on its way have been made. Nothing else in the tree changes, and a file
that has been written once can be written again without a new directory.
-/
namespace UiCatalog.FileTree

/-- The trees differ in directories that are new, among those given, and in one file. -/
structure Rewrites (among : List Location) (target : Location) (t t' : FileTree) : Prop where
  start : t'.workingDirectory = t.workingDirectory
  entries : ∀ l, t'.entry? l = t.entry? l ∨
    (l ∈ among ∧ t.entry? l = none ∧ t'.entry? l = some .directory) ∨
    (l = target ∧ t.isDirectoryAt l = false ∧ ∃ bytes, t'.entry? l = some (.file bytes))
  wellFormed : t.WellFormed → t'.WellFormed

variable {t t' t'' : FileTree} {p : Path} {place target l : Location} {among : List Location} {s piece : String}
  {pieces : List String} {e : Entry} {bytes : List UInt8}

/-! ## One entry -/

lemma entry?_put (hne : place ≠ []) (t : FileTree) (e : Entry) (l : Location) :
    FileTree.entry? (t.put place e) l = if l = place then some e else t.entry? l := by
  have hrest (entries : List (Location × Entry)) (hl : l ≠ place) :
      (entries.filter (·.1 != place)).lookup l = entries.lookup l := by
    induction entries with
    | nil => rfl
    | cons entry entries ih =>
      obtain ⟨place', e'⟩ := entry
      by_cases hplace : place' = place
      · subst hplace
        rw [List.filter_cons_of_neg (by simp), ih, List.lookup_cons, beq_false_of_ne hl]
      · rw [List.filter_cons_of_pos (by simpa using hplace), List.lookup_cons, List.lookup_cons, ih]
  unfold entry? put
  by_cases hl : l = place
  · subst hl
    simp [hne]
  · rw [if_neg hl, List.lookup_cons, beq_false_of_ne hl, hrest _ hl]

/-- A tree stays well formed when an entry is put in a directory, and not in the place of one. -/
lemma WellFormed.put (hwell : t.WellFormed) (hplace : t.isDirectoryAt place = true) (hs : IsName s)
    (hfree : t.isDirectoryAt (place ++ [s]) = false) (e : Entry) : (t.put (place ++ [s]) e).WellFormed := by
  have hentry (l : Location) :
      FileTree.entry? (t.put (place ++ [s]) e) l = if l = place ++ [s] then some e else t.entry? l :=
    entry?_put (by simp) t e l
  have hkept (l : Location) (hl : t.isDirectoryAt l = true) : (t.put (place ++ [s]) e).isDirectoryAt l = true := by
    have hne : l ≠ place ++ [s] := by
      rintro rfl
      rw [hfree] at hl
      cases hl
    rw [isDirectoryAt, hentry, if_neg hne]
    exact hl
  constructor
  · intro entry hmem name hname
    rcases List.mem_cons.1 hmem with rfl | hmem
    · rcases List.mem_append.1 hname with hname | hname
      · obtain ⟨parent, last, rfl⟩ := List.eq_nil_or_concat' place |>.resolve_left (List.ne_nil_of_mem hname)
        exact hwell.named _ (mem_entries_of_found (isDirectoryAt_eq_true_iff.1 hplace)) name hname
      · rwa [List.mem_singleton.1 hname]
    · exact hwell.named entry (List.mem_of_mem_filter hmem) name hname
  · intro parent name hne
    rw [hentry] at hne
    split_ifs at hne with heq
    · obtain ⟨rfl, -⟩ := List.append_inj' heq rfl
      exact hkept parent hplace
    · exact hkept parent (hwell.rooted parent name hne)

/-! ## Rewriting -/

lemma Rewrites.refl (among : List Location) (target : Location) (t : FileTree) : Rewrites among target t t :=
  ⟨rfl, fun _ => .inl rfl, id⟩

lemma Rewrites.trans (h : Rewrites among target t t') (h' : Rewrites among target t' t'') :
    Rewrites among target t t'' := by
  refine ⟨h'.start.trans h.start, fun l => ?_, fun hwell => h'.wellFormed (h.wellFormed hwell)⟩
  -- what is new after the first rewriting is no longer free for the second one
  rcases h.entries l with hsame | ⟨hmem, hnone, hnew⟩ | ⟨htarget, hfree, bytes, hfile⟩
  · have hdirectory : t'.isDirectoryAt l = t.isDirectoryAt l := by rw [isDirectoryAt, isDirectoryAt, hsame]
    rw [← hsame, ← hdirectory]
    exact h'.entries l
  · rcases h'.entries l with hsame | ⟨-, hnone', -⟩ | ⟨-, hfree, -⟩
    · exact .inr (.inl ⟨hmem, hnone, hsame.trans hnew⟩)
    · rw [hnew] at hnone'
      cases hnone'
    · rw [isDirectoryAt, hnew] at hfree
      cases hfree
  · rcases h'.entries l with hsame | ⟨-, hnone', -⟩ | ⟨-, -, bytes', hfile'⟩
    · exact .inr (.inr ⟨htarget, hfree, bytes, hsame.trans hfile⟩)
    · rw [hfile] at hnone'
      cases hnone'
    · exact .inr (.inr ⟨htarget, hfree, bytes', hfile'⟩)

lemma Rewrites.mono {among' : List Location} (h : Rewrites among target t t') (hsub : among ⊆ among') :
    Rewrites among' target t t' :=
  ⟨h.start, fun l => (h.entries l).imp_right (Or.imp_left fun hnew => ⟨hsub hnew.1, hnew.2⟩), h.wellFormed⟩

/-- Directories stay. -/
lemma Rewrites.isDirectoryAt (h : Rewrites among target t t') (hl : t.isDirectoryAt l = true) :
    t'.isDirectoryAt l = true := by
  rcases h.entries l with hsame | ⟨-, hnone, -⟩ | ⟨-, hfree, -⟩
  · rw [FileTree.isDirectoryAt, hsame]
    exact hl
  · rw [FileTree.isDirectoryAt, hnone] at hl
    cases hl
  · rw [hfree] at hl
    cases hl

lemma Rewrites.fileAt? (h : Rewrites among target t t') (hne : l ≠ target) : t'.fileAt? l = t.fileAt? l := by
  rcases h.entries l with hsame | ⟨-, hnone, hnew⟩ | ⟨htarget, -⟩
  · rw [FileTree.fileAt?, FileTree.fileAt?, hsame]
  · rw [FileTree.fileAt?, FileTree.fileAt?, hnone, hnew]
  · exact absurd htarget hne

/-- What leads to a location still does. -/
lemma Rewrites.locate? (h : Rewrites among target t t') (hlocate : t.locate? p = some l) : t'.locate? p = some l := by
  rw [locate?_eq] at hlocate ⊢
  split_ifs at hlocate ⊢
  obtain ⟨hway, hgoal⟩ := reach?_eq_some_iff.1 hlocate
  rw [reach?_eq_some_iff, way_congr h.start, goal_congr h.start]
  exact ⟨fun l hl => h.isDirectoryAt (hway l hl), hgoal⟩

lemma rewrites_directory (hplace : t.isDirectoryAt place = true) (hs : IsName s)
    (hnone : t.entry? (place ++ [s]) = none) (target : Location) :
    Rewrites [place ++ [s]] target t (t.put (place ++ [s]) .directory) := by
  refine ⟨rfl, fun l => ?_, fun hwell => hwell.put hplace hs ?_ _⟩
  · rw [entry?_put (by simp)]
    split_ifs with hl
    · exact .inr (.inl ⟨by simp [hl], hl ▸ hnone, rfl⟩)
    · exact .inl rfl
  · rw [FileTree.isDirectoryAt, hnone]
    rfl

lemma rewrites_file (hplace : t.isDirectoryAt place = true) (hs : IsName s)
    (hfree : t.isDirectoryAt (place ++ [s]) = false) (among : List Location) (bytes : List UInt8) :
    Rewrites among (place ++ [s]) t (t.put (place ++ [s]) (.file bytes)) := by
  refine ⟨rfl, fun l => ?_, fun hwell => hwell.put hplace hs hfree _⟩
  rw [entry?_put (by simp)]
  split_ifs with hl
  · exact .inr (.inr ⟨hl, hl ▸ hfree, bytes, rfl⟩)
  · exact .inl rfl

/-! ## Making directories -/

lemma isName_of_isNewName (hnew : isNewName s = true) (hslash : '/' ∉ s.toList) : IsName s := by
  simp only [isNewName, Bool.and_eq_true, Bool.not_eq_true', bne_iff_ne] at hnew
  exact ⟨hnew.1.1, hnew.1.2, hslash⟩

lemma stepFrom_name (hs : IsName s) (place : Location) : stepFrom place s = place ++ [s] := by
  rw [stepFrom, hs.not_idle, if_neg Bool.false_ne_true, if_neg hs.not_parent]

/-- Every way begins where it starts. -/
lemma mem_stops_lead (place : Location) (pieces : List String) : place ∈ stops place pieces ++ [lead place pieces] := by
  cases pieces with
  | nil => exact List.mem_singleton_self _
  | cons piece pieces => exact List.mem_cons_self

lemma rewrites_makeWay (hpieces : ∀ piece ∈ pieces, '/' ∉ piece.toList) (t : FileTree) (place target : Location) :
    Rewrites (stops place pieces ++ [lead place pieces]) target t (t.makeWay place pieces).1 := by
  induction pieces generalizing t place with
  | nil => exact .refl _ _ _
  | cons piece pieces ih =>
    obtain ⟨hpiece, hpieces⟩ := List.forall_mem_cons.1 hpieces
    have hsub : stops (stepFrom place piece) pieces ++ [lead (stepFrom place piece) pieces] ⊆
        stops place (piece :: pieces) ++ [lead place (piece :: pieces)] := List.subset_cons_self _ _
    rw [makeWay]
    split_ifs with hplace
    · dsimp only
      split_ifs with hnew
      · rw [Bool.and_eq_true] at hnew
        have hs := isName_of_isNewName hnew.2 hpiece
        have hnext := stepFrom_name hs place
        have hput := rewrites_directory hplace hs (by simpa [hnext] using hnew.1) target
        rw [← hnext] at hput
        refine (hput.mono ?_).trans ((ih hpieces _ _).mono hsub)
        rw [List.cons_subset]
        exact ⟨hsub (mem_stops_lead _ _), List.nil_subset _⟩
      · exact (ih hpieces t _).mono hsub
    · exact .refl _ _ _

/-- When the way has been made, all of it can be gone. -/
lemma directories_of_makeWay (hpieces : ∀ piece ∈ pieces, '/' ∉ piece.toList)
    (h : (t.makeWay place pieces).2 = true) :
    ∀ l ∈ stops place pieces ++ [lead place pieces], (t.makeWay place pieces).1.isDirectoryAt l = true := by
  induction pieces generalizing t place with
  | nil =>
    intro l hl
    rw [List.mem_singleton.1 hl]
    exact h
  | cons piece pieces ih =>
    obtain ⟨hpiece, hrest⟩ := List.forall_mem_cons.1 hpieces
    intro l hl
    have hgrows := rewrites_makeWay hpieces t place place
    rw [makeWay] at h hgrows ⊢
    split_ifs at h hgrows ⊢ with hplace
    · rcases List.mem_cons.1 hl with rfl | hl
      · exact hgrows.isDirectoryAt hplace
      · dsimp only at h ⊢
        split_ifs at h ⊢
        · exact ih hrest h l hl
        · exact ih hrest h l hl

lemma makeWay_of_directories (h : ∀ l ∈ stops place pieces ++ [lead place pieces], t.isDirectoryAt l = true) :
    t.makeWay place pieces = (t, true) := by
  induction pieces generalizing place with
  | nil => rw [makeWay, h place (List.mem_singleton_self _)]
  | cons piece pieces ih =>
    obtain ⟨hplace, hrest⟩ := List.forall_mem_cons.1 h
    have hnext := isDirectoryAt_eq_true_iff.1 (hrest _ (mem_stops_lead (stepFrom place piece) pieces))
    rw [makeWay, if_pos hplace]
    dsimp only
    rw [hnext, Option.isNone_some, Bool.false_and, if_neg Bool.false_ne_true]
    exact ih hrest

lemma rewrites_makeDirectories (t : FileTree) (p : Path) (target : Location) :
    Rewrites (t.way p ++ [t.goal p]) target t (t.makeDirectories p).1 := by
  unfold makeDirectories
  split_ifs
  · exact rewrites_makeWay (fun piece => Path.no_slash_of_mem_pieces) t _ target
  · exact .refl _ _ _

/-- Where directories have been made none has to be made again. -/
lemma makeDirectories_again (h : (t.makeDirectories p).2 = true)
    (hwrites : Rewrites among target (t.makeDirectories p).1 t') : t'.makeDirectories p = (t', true) := by
  have hstart := start_congr (hwrites.start.trans (rewrites_makeDirectories t p target).start) p
  unfold makeDirectories at h hwrites ⊢
  split_ifs at h hwrites ⊢ with hfollow
  have hdirectories := directories_of_makeWay (fun piece => Path.no_slash_of_mem_pieces) h
  rw [hstart]
  exact makeWay_of_directories fun l hl => hwrites.isDirectoryAt (hdirectories l hl)

/-! ## The directory of a file -/

lemma pieces_intercalate {first : String} {rest : List String} (h : ∀ piece ∈ first :: rest, '/' ∉ piece.toList) :
    Path.pieces ⟨"/".intercalate (first :: rest)⟩ = first :: rest := by
  induction rest generalizing first with
  | nil => exact Path.pieces_of_no_slash (h first List.mem_cons_self)
  | cons next rest ih =>
    obtain ⟨hfirst, hrest⟩ := List.forall_mem_cons.1 h
    rw [String.intercalate_cons_cons, Path.pieces_slash, Path.pieces_of_no_slash hfirst, ih hrest,
      List.singleton_append]

lemma isAbsolute_intercalate {first next : String} {rest : List String} (hfirst : '/' ∉ first.toList) :
    Path.isAbsolute ⟨"/".intercalate (first :: next :: rest)⟩ = true ↔ first = "" := by
  rw [String.intercalate_cons_cons, Path.isAbsolute, beq_iff_eq]
  cases hchars : first.toList with
  | nil => simp [String.toList_eq_nil_iff.1 hchars]
  | cons c chars =>
    have hne : first ≠ "" := by
      rintro rfl
      cases hchars
    have hc : c ≠ '/' := by
      rintro rfl
      exact hfirst (hchars ▸ List.mem_cons_self)
    simp [hchars, hne, hc]

lemma isAbsolute_iff {first : String} {rest : List String} (h : p.pieces = first :: rest) (hrest : rest ≠ []) :
    p.isAbsolute = true ↔ first = "" := by
  constructor
  · intro habsolute
    rw [Path.pieces_of_isAbsolute habsolute] at h
    exact (List.cons.inj h).1.symm
  · rintro rfl
    rw [Path.isAbsolute, beq_iff_eq]
    cases hchars : p.text.toList with
    | nil =>
      rw [Path.pieces, hchars] at h
      exact absurd (List.cons.inj h).2.symm hrest
    | cons c chars =>
      obtain ⟨piece, pieces, hpieces⟩ := List.exists_cons_of_ne_nil (Text.splitAt_ne_nil '/' chars)
      rw [Path.pieces, hchars, Text.splitAt, hpieces] at h
      split_ifs at h with hc
      · rw [hc, List.head?_cons]
      · have hfirst : String.ofList (c :: piece) = "" := (List.cons.inj h).1
        rw [← String.toList_inj, String.toList_ofList] at hfirst
        cases hfirst

lemma ofPieces_spec {first : String} {rest : List String} (h : ∀ piece ∈ first :: rest, '/' ∉ piece.toList) :
    ((Path.ofPieces first rest).isAbsolute = true ↔ first = "") ∧
      (Path.ofPieces first rest = ⟨"/"⟩ ∨ (Path.ofPieces first rest).pieces = first :: rest) := by
  unfold Path.ofPieces
  split_ifs with hroot
  · exact ⟨iff_of_true rfl hroot.1, .inl rfl⟩
  · refine ⟨?_, .inr (pieces_intercalate h)⟩
    cases rest with
    | nil =>
      have hfirst : first ≠ "" := fun heq => hroot ⟨heq, rfl⟩
      have hrelative := Path.not_isAbsolute_of_no_slash (h first List.mem_cons_self)
      exact iff_of_false (by simp [hrelative]) hfirst
    | cons next rest => exact isAbsolute_intercalate (h first List.mem_cons_self)

/-- A path has more pieces than its directory, unless that is the root. -/
lemma exists_pieces_of_parent {parent : Path} (h : p.parent? = some parent) (hne : parent.text ≠ "") :
    parent.isAbsolute = p.isAbsolute ∧
      (parent = ⟨"/"⟩ ∨ ∃ next more, p.pieces = parent.pieces ++ next :: more) := by
  unfold Path.parent? at h
  split at h
  · cases h
  · next first rest hpieces =>
    obtain ⟨idle, hidle⟩ : Path.dropIdle rest <+: rest := List.rdropWhile_prefix _ _
    generalize Path.dropIdle rest = steps at h hidle
    split at h
    · split_ifs at h
      cases h
      exact absurd rfl hne
    · next hsteps =>
      obtain rfl := Option.some.inj h
      obtain ⟨idle', hidle'⟩ : Path.dropIdle steps.dropLast <+: steps.dropLast := List.rdropWhile_prefix _ _
      generalize Path.dropIdle steps.dropLast = kept at hidle' ⊢
      -- what is idle at either end is taken away with the last step
      obtain ⟨last, hlast⟩ : ∃ last, steps.dropLast ++ [last] = steps := ⟨_, List.dropLast_concat_getLast hsteps⟩
      obtain ⟨next, more, hmore⟩ := List.exists_cons_of_ne_nil (show idle' ++ last :: idle ≠ [] by simp)
      have hrest : rest = kept ++ next :: more := by
        rw [← hmore, ← hidle, ← hlast, ← hidle']
        simp
      have hslash : ∀ piece ∈ first :: kept, '/' ∉ piece.toList := by
        intro piece hmem
        apply Path.no_slash_of_mem_pieces (p := p)
        rw [hpieces, hrest, ← List.cons_append]
        exact List.mem_append_left _ hmem
      obtain ⟨habsolute, hparent⟩ := ofPieces_spec hslash
      refine ⟨?_, hparent.imp_right fun hkept => ⟨next, more, ?_⟩⟩
      · rw [Bool.eq_iff_iff, habsolute, isAbsolute_iff hpieces (by simp [hrest])]
      · rw [hkept, hpieces, hrest, List.cons_append]

/-- The way to the directory of a file is a part of the way to the file. -/
lemma way_parent {parent : Path} (h : p.parent? = some parent) (hne : parent.text ≠ "") (t : FileTree) :
    t.way parent ++ [t.goal parent] ⊆ t.way p := by
  obtain ⟨habsolute, hroot | ⟨next, more, hpieces⟩⟩ := exists_pieces_of_parent h hne
  · subst hroot
    obtain ⟨first, rest, hsplit⟩ := List.exists_cons_of_ne_nil p.pieces_ne_nil
    have hstart : t.start p = [] := if_pos habsolute.symm
    have hway : t.way ⟨"/"⟩ ++ [t.goal ⟨"/"⟩] = [[], [], []] := rfl
    rw [hway, way, hstart, hsplit, stops]
    simp
  · have hstart : t.start p = t.start parent := by rw [start, start, habsolute]
    rw [way, way, goal, hstart, hpieces, stops_append, stops]
    exact List.append_subset.2 ⟨List.subset_append_left _ _, by simp⟩

/-! ## Writing -/

lemma writable?_eq {first : List String} {name : String} (h : p.pieces = first ++ [name]) (t : FileTree) :
    t.writable? p =
      if canFollow p = true ∧ isNewName name = true ∧ (∀ l ∈ t.way p, t.isDirectoryAt l = true) ∧
        t.isDirectoryAt (lead (t.start p) first ++ [name]) = false then some (lead (t.start p) first ++ [name])
      else none := by
  have hway : t.way p = stops (t.start p) first ++ [lead (t.start p) first] := by
    rw [way, h, stops_append]
    rfl
  have hlast : p.pieces.getLast? = some name := by rw [h, List.getLast?_concat]
  have hfirst : p.pieces.dropLast = first := by rw [h, List.dropLast_concat]
  simp only [writable?, hlast, hfirst, walk_eq, hway, List.forall_mem_append, List.forall_mem_singleton,
    Option.bind_eq_bind, Option.bind_some]
  by_cases hstops : ∀ l ∈ stops (t.start p) first, t.isDirectoryAt l = true
  · simp only [iff_true_intro hstops, if_true, true_and, Option.bind_some, Bool.and_eq_true, Bool.not_eq_true',
      and_assoc]
  · simp [hstops]

lemma exists_of_writable (h : t.writable? p = some l) : ∃ place s, l = place ++ [s] ∧ IsName s ∧
    canFollow p = true ∧ (∀ l ∈ t.way p, t.isDirectoryAt l = true) ∧ t.isDirectoryAt place = true ∧
    t.isDirectoryAt l = false ∧ t.goal p = l := by
  obtain ⟨first, name, hpieces⟩ := (List.eq_nil_or_concat' p.pieces).resolve_left p.pieces_ne_nil
  rw [writable?_eq hpieces] at h
  split_ifs at h with hfree
  obtain rfl := Option.some.inj h
  obtain ⟨hfollow, hnew, hway, hfree⟩ := hfree
  have hs : IsName name := isName_of_isNewName hnew (Path.no_slash_of_mem_pieces (p := p) (by simp [hpieces]))
  have hplace : t.isDirectoryAt (lead (t.start p) first) = true := by
    apply hway
    rw [way, hpieces, stops_append]
    exact List.mem_append_right _ List.mem_cons_self
  refine ⟨_, name, rfl, hs, hfollow, hway, hplace, hfree, ?_⟩
  rw [goal, hpieces, lead, List.foldl_concat, stepFrom_name hs]
  rfl

/-- A file that has been written can be written again. -/
lemma writable?_again (h : t.writable? p = some l) (hwrites : Rewrites among l t t')
    (hfile : t'.isDirectoryAt l = false) : t'.writable? p = some l := by
  obtain ⟨first, name, hpieces⟩ := (List.eq_nil_or_concat' p.pieces).resolve_left p.pieces_ne_nil
  rw [writable?_eq hpieces] at h ⊢
  split_ifs at h with hfree
  obtain rfl := Option.some.inj h
  obtain ⟨hfollow, hnew, hdirectories, -⟩ := hfree
  have hway : ∀ l ∈ t.way p, t'.isDirectoryAt l = true := fun l hl => hwrites.isDirectoryAt (hdirectories l hl)
  rw [way_congr hwrites.start, start_congr hwrites.start, if_pos ⟨hfollow, hnew, hway, hfile⟩]

end UiCatalog.FileTree
