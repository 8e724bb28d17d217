import Mathlib.Data.List.Sort
import UiCatalog.FileTree
import UiCatalog.Proofs.Blanks

/-!
# Ways through a file tree

A path leads on a way of locations, each of which has to be a directory for the next step. A joined path takes
its second part from where the first one leads, so a file is found by where its directory is found.
-/
namespace UiCatalog

open Text

namespace Path

/-- The entries of a directory are listed unless its path is relative and has an empty piece where only `.` comes
before. -/
def Listable (p : Path) : Prop := p.isAbsolute = true ∨ (p.pieces.dropWhile (· == ".")).head? ≠ some ""

instance : DecidablePred Listable := fun p =>
  inferInstanceAs (Decidable (p.isAbsolute = true ∨ (p.pieces.dropWhile (· == ".")).head? ≠ some ""))

variable {p q : Path} {piece s : String}

lemma pieces_ne_nil (p : Path) : p.pieces ≠ [] := by
  unfold pieces
  intro h
  exact splitAt_ne_nil _ _ (List.map_eq_nil_iff.1 h)

lemma no_slash_of_mem_pieces (h : piece ∈ p.pieces) : '/' ∉ piece.toList := by
  obtain ⟨chars, hchars, rfl⟩ := List.mem_map.1 h
  rw [String.toList_ofList]
  exact not_mem_of_mem_splitAt hchars

lemma pieces_of_no_slash (h : '/' ∉ s.toList) : pieces ⟨s⟩ = [s] := by
  rw [pieces, splitAt_of_not_mem h, List.map_singleton, String.ofList_toList]

lemma not_isAbsolute_of_no_slash (h : '/' ∉ s.toList) : isAbsolute ⟨s⟩ = false := by
  rw [isAbsolute, beq_eq_false_iff_ne]
  intro hhead
  exact h (List.mem_of_mem_head? hhead)

lemma pieces_slash (p q : String) : pieces ⟨p ++ "/" ++ q⟩ = pieces ⟨p⟩ ++ pieces ⟨q⟩ := by
  have htext : (p ++ "/" ++ q).toList = p.toList ++ '/' :: q.toList := by simp
  rw [pieces, htext, splitAt_append, List.map_append]
  rfl

lemma pieces_of_isAbsolute (h : p.isAbsolute = true) : p.pieces = "" :: p.pieces.drop 1 := by
  obtain ⟨chars, hchars⟩ := List.head?_eq_some_iff.1 (beq_iff_eq.1 h)
  have hsplit : splitAt '/' p.text.toList = [] :: splitAt '/' chars := by rw [hchars, splitAt, if_pos rfl]
  rw [pieces, hsplit]
  rfl

lemma entry_ne_current (h : q.text ≠ "" ∧ q.text ≠ ".") (hpiece : '/' ∉ piece.toList) :
    (q.entry piece).text ≠ "" ∧ (q.entry piece).text ≠ "." := by
  have hslash : '/' ∈ (q.entry piece).text.toList := by
    by_cases hlast : q.text.toList.getLast? = some '/'
    · have hmem := List.mem_of_mem_getLast? hlast
      simp [entry, join, h.1, h.2, hlast, not_isAbsolute_of_no_slash hpiece, hmem]
    · simp [entry, join, h.1, h.2, hlast, not_isAbsolute_of_no_slash hpiece]
  constructor
  · intro heq
    rw [heq] at hslash
    exact absurd hslash (by decide)
  · intro heq
    rw [heq] at hslash
    exact absurd hslash (by decide)

lemma isSome_entered {steps : List String} (hsteps : ∀ piece ∈ steps, '/' ∉ piece.toList)
    (hq : q.text ≠ "" ∧ q.text ≠ ".") :
    (steps.foldlM (fun q piece => if q.text = "." ∧ piece = "" then none else some (q.entry piece)) q).isSome := by
  induction steps generalizing q with
  | nil => rfl
  | cons piece steps ih =>
    obtain ⟨hpiece, hsteps⟩ := List.forall_mem_cons.1 hsteps
    rw [List.foldlM_cons, if_neg (fun hlost => hq.2 hlost.1)]
    exact ih hsteps (entry_ne_current hq hpiece)

lemma isSome_listed?_iff : p.listed?.isSome ↔ p.Listable := by
  have hpieces : ∀ piece ∈ p.pieces, '/' ∉ piece.toList := fun piece => no_slash_of_mem_pieces
  unfold listed? Listable
  by_cases habsolute : p.isAbsolute = true
  · rw [if_pos habsolute]
    have hsteps : ∀ piece ∈ p.pieces.drop 1, '/' ∉ piece.toList := fun piece hmem =>
      hpieces piece (List.mem_of_mem_drop hmem)
    have hentered := isSome_entered (q := ⟨"/"⟩) hsteps (by decide)
    simpa [habsolute] using hentered
  · rw [if_neg habsolute, or_iff_right habsolute]
    generalize p.pieces = steps at hpieces ⊢
    induction steps with
    | nil => simp
    | cons piece steps ih =>
      obtain ⟨hpiece, hsteps⟩ := List.forall_mem_cons.1 hpieces
      dsimp only at ih ⊢
      rw [List.foldlM_cons]
      by_cases hcurrent : piece = "."
      · subst hcurrent
        exact ih hsteps
      · have hhead : ((piece :: steps).dropWhile (· == ".")).head? = some piece := by simp [hcurrent]
        rw [hhead]
        by_cases hempty : piece = ""
        · simp [hempty]
        · have hentered := isSome_entered (q := ⟨piece⟩) hsteps ⟨hempty, hcurrent⟩
          simpa [hempty, entry] using hentered

end Path

namespace FileTree

/-- The locations from which the pieces are taken, one after the other. -/
def stops : Location → List String → List Location
  | _, [] => []
  | place, piece :: pieces => place :: stops (stepFrom place piece) pieces

/-- Where the pieces lead. -/
def lead (place : Location) (pieces : List String) : Location := pieces.foldl stepFrom place

/-- The locations that have to be directories for a path to be followed. -/
def way (t : FileTree) (p : Path) : List Location := stops (t.start p) p.pieces

def goal (t : FileTree) (p : Path) : Location := lead (t.start p) p.pieces

/-- Where a path leads if its way can be gone, however long its text is. -/
def reach? (t : FileTree) (p : Path) : Option Location := t.walk (t.start p) p.pieces

/-- The bytes of the file that stands at a location. -/
def fileAt? (t : FileTree) (place : Location) : Option (List UInt8) :=
  match t.entry? place with
  | some (.file bytes) => some bytes
  | _ => none

/-- A piece that leads one level down. -/
structure IsName (s : String) : Prop where
  not_idle : Path.isIdle s = false
  not_parent : s ≠ ".."
  no_slash : '/' ∉ s.toList

instance (s : String) : Decidable (IsName s) :=
  decidable_of_iff (Path.isIdle s = false ∧ s ≠ ".." ∧ '/' ∉ s.toList)
    ⟨fun h => ⟨h.1, h.2.1, h.2.2⟩, fun h => ⟨h.not_idle, h.not_parent, h.no_slash⟩⟩

/-- What a disk keeps to: entries have names, and stand in directories. -/
structure WellFormed (t : FileTree) : Prop where
  named : ∀ e ∈ t.entries, ∀ s ∈ e.1, IsName s
  rooted : ∀ place name, t.entry? (place ++ [name]) ≠ none → t.isDirectoryAt place = true

variable {t t' : FileTree} {p q base : Path} {place l : Location} {piece s : String} {pieces rest : List String}

/-! ## Walking -/

lemma stops_append (place : Location) (pieces rest : List String) :
    stops place (pieces ++ rest) = stops place pieces ++ stops (lead place pieces) rest := by
  induction pieces generalizing place with
  | nil => rfl
  | cons piece pieces ih =>
    rw [List.cons_append, stops, stops, ih, List.cons_append]
    rfl

lemma walk_eq (t : FileTree) (place : Location) (pieces : List String) : t.walk place pieces =
    if ∀ l ∈ stops place pieces, t.isDirectoryAt l = true then some (lead place pieces) else none := by
  induction pieces generalizing place with
  | nil => simp [walk, stops, lead]
  | cons piece pieces ih =>
    rw [walk, ih, stops]
    simp only [List.forall_mem_cons]
    by_cases hplace : t.isDirectoryAt place = true <;> simp [hplace, lead]

lemma reach?_eq_some_iff : t.reach? p = some l ↔ (∀ l ∈ t.way p, t.isDirectoryAt l = true) ∧ t.goal p = l := by
  rw [reach?, walk_eq, Option.ite_none_right_eq_some, Option.some.injEq]
  rfl

lemma walk_append (t : FileTree) (place : Location) (pieces rest : List String) :
    t.walk place (pieces ++ rest) = (t.walk place pieces).bind fun l => t.walk l rest := by
  induction pieces generalizing place with
  | nil => rfl
  | cons piece pieces ih =>
    rw [List.cons_append, walk, walk, ih]
    split_ifs <;> rfl

lemma walk_of_not_directory (h : t.isDirectoryAt place = false) (hne : pieces ≠ []) : t.walk place pieces = none := by
  cases pieces with
  | nil => exact absurd rfl hne
  | cons piece pieces => rw [walk, h, if_neg Bool.false_ne_true]

/-- An idle piece in front of others makes no difference. -/
lemma walk_idle_bind (hs : Path.isIdle s = true) (hne : pieces ≠ []) (t : FileTree) (place : Location) :
    ((t.walk place [s]).bind fun l => t.walk l pieces) = t.walk place pieces := by
  rw [walk, stepFrom, if_pos hs]
  split_ifs with hplace
  · rfl
  · exact (walk_of_not_directory (by simpa using hplace) hne).symm

lemma walk_name (hs : IsName s) (t : FileTree) (place : Location) :
    t.walk place [s] = if t.isDirectoryAt place then some (place ++ [s]) else none := by
  rw [walk, walk, stepFrom, hs.not_idle, if_neg hs.not_parent]
  simp

lemma start_congr (h : t'.workingDirectory = t.workingDirectory) (p : Path) : t'.start p = t.start p := by
  rw [start, start, h]

lemma way_congr (h : t'.workingDirectory = t.workingDirectory) (p : Path) : t'.way p = t.way p := by
  rw [way, way, start_congr h]

lemma goal_congr (h : t'.workingDirectory = t.workingDirectory) (p : Path) : t'.goal p = t.goal p := by
  rw [goal, goal, start_congr h]

/-- A path leads to the same place in both trees if they have the same directories on its way. -/
lemma reach?_congr (hstart : t'.workingDirectory = t.workingDirectory)
    (hway : ∀ l ∈ t.way p, t'.isDirectoryAt l = t.isDirectoryAt l) : t'.reach? p = t.reach? p := by
  have hsame := start_congr hstart p
  have hiff : (∀ l ∈ stops (t.start p) p.pieces, t'.isDirectoryAt l = true) ↔
      ∀ l ∈ stops (t.start p) p.pieces, t.isDirectoryAt l = true :=
    forall₂_congr fun l hl => by rw [hway l hl]
  simp only [reach?, walk_eq, hsame, hiff]

/-! ## Paths -/

lemma start_append (t : FileTree) {text : String} (hne : text ≠ "") (r : String) :
    t.start ⟨text ++ r⟩ = t.start ⟨text⟩ := by
  obtain ⟨c, chars, hchars⟩ := List.exists_cons_of_ne_nil (mt String.toList_eq_nil_iff.1 hne)
  simp [start, Path.isAbsolute, hchars]

/-- A joined path leads to where its second part leads from its first one. -/
lemma reach?_join (hq : q.isAbsolute = false) (t : FileTree) (p : Path) :
    t.reach? (p.join q) = (t.reach? p).bind fun l => t.walk l q.pieces := by
  -- what stands between the two parts depends on how the first one ends
  obtain ⟨text⟩ := p
  by_cases hempty : text = ""
  · subst hempty
    have hjoin : Path.join ⟨""⟩ q = q := by simp [Path.join]
    have hstart : t.start q = t.start ⟨""⟩ := by rw [start, hq]; rfl
    have hhere : t.reach? ⟨""⟩ = t.walk (t.start ⟨""⟩) [""] := rfl
    rw [hjoin, hhere, reach?, hstart, walk_idle_bind rfl q.pieces_ne_nil]
  · by_cases hlast : text.toList.getLast? = some '/'
    · -- the empty piece behind the last slash makes way for the pieces of `q`
      obtain ⟨chars, hchars⟩ := List.getLast?_eq_some_iff.1 hlast
      have htext : text = String.ofList chars ++ "/" ++ "" := by
        rw [← String.toList_inj, hchars]
        simp
      have hjoin : Path.join ⟨text⟩ q = ⟨text ++ q.text⟩ := by simp [Path.join, hq, hempty, hlast]
      have hpieces : Path.pieces ⟨text⟩ = Path.pieces ⟨String.ofList chars⟩ ++ [""] := by
        rw [htext, Path.pieces_slash]
        rfl
      have hjoined : Path.pieces ⟨text ++ q.text⟩ = Path.pieces ⟨String.ofList chars⟩ ++ q.pieces := by
        rw [htext, String.append_empty, Path.pieces_slash]
      rw [hjoin, reach?, start_append t hempty, hjoined, walk_append, reach?, hpieces, walk_append, Option.bind_assoc]
      exact Option.bind_congr fun l _ => (walk_idle_bind rfl q.pieces_ne_nil t l).symm
    · have hjoin : Path.join ⟨text⟩ q = ⟨text ++ ("/" ++ q.text)⟩ := by
        simp [Path.join, hq, hempty, hlast, String.append_assoc]
      rw [hjoin, reach?, start_append t hempty, ← String.append_assoc, Path.pieces_slash, walk_append]
      rfl

lemma reach?_join_name (hs : IsName s) (t : FileTree) (p : Path) : t.reach? (p.join ⟨s⟩) =
    (t.reach? p).bind fun l => if t.isDirectoryAt l then some (l ++ [s]) else none := by
  rw [reach?_join (Path.not_isAbsolute_of_no_slash hs.no_slash), Path.pieces_of_no_slash hs.no_slash]
  simp only [walk_name hs]

lemma reach?_entry (hpiece : '/' ∉ piece.toList) (t : FileTree) (p : Path) :
    t.reach? (p.entry piece) = (t.reach? p).bind fun l => t.walk l [piece] := by
  unfold Path.entry
  split_ifs with hcurrent
  · obtain ⟨text⟩ := p
    subst hcurrent
    have hhere : t.reach? ⟨"."⟩ = t.walk t.workingDirectory ["."] := rfl
    rw [reach?, start, Path.not_isAbsolute_of_no_slash hpiece, if_neg Bool.false_ne_true,
      Path.pieces_of_no_slash hpiece, hhere, walk_idle_bind rfl (List.cons_ne_nil _ _)]
  · rw [reach?_join (Path.not_isAbsolute_of_no_slash hpiece), Path.pieces_of_no_slash hpiece]

lemma reach?_entry_name (hs : IsName s) (hreach : t.reach? p = some place) (hplace : t.isDirectoryAt place = true) :
    t.reach? (p.entry s) = some (place ++ [s]) := by
  rw [reach?_entry hs.no_slash, hreach, Option.bind_some, walk_name hs, if_pos hplace]

/-- The path under which a directory is listed leads to the directory. -/
lemma reach?_listed (h : p.listed? = some base) (t : FileTree) : t.reach? base = t.reach? p := by
  -- from any path on, entering one piece after the other leads where walking them does
  have hentered (steps : List String) (hsteps : ∀ piece ∈ steps, '/' ∉ piece.toList) (origin : Path)
      (hfold : steps.foldlM (fun q piece => if q.text = "." ∧ piece = "" then none else some (q.entry piece)) origin =
        some base) : t.reach? base = (t.reach? origin).bind fun l => t.walk l steps := by
    induction steps generalizing origin with
    | nil =>
      obtain rfl : origin = base := Option.some.inj hfold
      cases t.reach? origin <;> rfl
    | cons piece steps ih =>
      obtain ⟨hpiece, hsteps⟩ := List.forall_mem_cons.1 hsteps
      rw [List.foldlM_cons] at hfold
      split_ifs at hfold with hlost
      · cases hfold
      · rw [ih hsteps (origin.entry piece) hfold, reach?_entry hpiece, Option.bind_assoc]
        refine Option.bind_congr fun l _ => ?_
        rw [← walk_append, List.singleton_append]
  unfold Path.listed? at h
  have hpieces : ∀ piece ∈ p.pieces, '/' ∉ piece.toList := fun piece => Path.no_slash_of_mem_pieces
  split_ifs at h with habsolute
  · have hroot : t.reach? ⟨"/"⟩ = some [] := rfl
    rw [hentered _ (fun piece hmem => hpieces piece (List.mem_of_mem_drop hmem)) _ h, hroot, reach?, start,
      if_pos habsolute, Path.pieces_of_isAbsolute habsolute]
    rfl
  · have hhere : t.reach? ⟨"."⟩ = t.walk t.workingDirectory ["."] := rfl
    rw [hentered _ hpieces _ h, hhere, reach?, start, if_neg habsolute, walk_idle_bind rfl p.pieces_ne_nil]

/-! ## Files and directories -/

lemma locate?_eq (t : FileTree) (p : Path) : t.locate? p = if canFollow p then t.reach? p else none := rfl

lemma bytes?_eq (t : FileTree) (p : Path) :
    t.bytes? p = if canFollow p then (t.reach? p).bind t.fileAt? else none := by
  unfold bytes? find?
  rw [locate?_eq]
  split_ifs
  · cases t.reach? p <;> rfl
  · rfl

/-- A file is found by where its directory is found. -/
lemma bytes?_join_name (hs : IsName s) (t : FileTree) (p : Path) : t.bytes? (p.join ⟨s⟩) =
    if canFollow (p.join ⟨s⟩) then
      (t.reach? p).bind fun l => if t.isDirectoryAt l then t.fileAt? (l ++ [s]) else none
    else none := by
  rw [bytes?_eq, reach?_join_name hs, Option.bind_assoc]
  congr 2
  funext l
  split_ifs <;> rfl

lemma bytes?_join_eq_none (hs : IsName s)
    (h : t.isDirectoryAt (t.goal p) = true → t.fileAt? (t.goal p ++ [s]) = none) : t.bytes? (p.join ⟨s⟩) = none := by
  rw [bytes?_join_name hs]
  split_ifs
  · rw [Option.bind_eq_none_iff]
    intro l hl
    obtain rfl := (reach?_eq_some_iff.1 hl).2
    split_ifs with hdirectory
    · exact h hdirectory
    · rfl
  · rfl

lemma bytes?_join_congr (hs : IsName s) (hreach : t'.reach? p = t.reach? p)
    (hplace : ∀ l, t.reach? p = some l → t'.isDirectoryAt l = t.isDirectoryAt l)
    (hfile : ∀ l, t.reach? p = some l → t.isDirectoryAt l = true → t'.fileAt? (l ++ [s]) = t.fileAt? (l ++ [s])) :
    t'.bytes? (p.join ⟨s⟩) = t.bytes? (p.join ⟨s⟩) := by
  rw [bytes?_join_name hs, bytes?_join_name hs, hreach]
  congr 1
  refine Option.bind_congr fun l hl => ?_
  rw [hplace l hl]
  split_ifs with hdirectory
  · exact hfile l hl hdirectory
  · rfl

lemma isDirectoryAt_eq_true_iff : t.isDirectoryAt l = true ↔ t.entry? l = some .directory := beq_iff_eq

/-- The names of the directories in a directory. -/
def subdirectories (t : FileTree) (place : Location) : List String :=
  (t.names place).filter fun name => t.isDirectoryAt (place ++ [name])

lemma mem_names_iff : s ∈ t.names place ↔ t.entry? (place ++ [s]) ≠ none := by
  have hkey : t.entry? (place ++ [s]) = t.entries.lookup (place ++ [s]) := if_neg (by simp)
  rw [names, List.mem_mergeSort, List.mem_eraseDups, List.mem_filterMap, hkey, Ne, List.lookup_eq_none_iff]
  simp only [not_forall, exists_prop, bne_iff_ne, ne_eq, not_not]
  refine exists_congr fun e => and_congr_right fun _ => ?_
  constructor
  · intro h
    split_ifs at h with hplace
    rw [← hplace, List.dropLast_append_getLast? s h]
  · intro h
    simp [← h]

lemma mem_entries_of_found {e : Entry} (h : t.entry? (place ++ [s]) = some e) : (place ++ [s], e) ∈ t.entries := by
  have hkey : t.entry? (place ++ [s]) = t.entries.lookup (place ++ [s]) := if_neg (by simp)
  obtain ⟨before, after, hentries, -⟩ := List.lookup_eq_some_iff.1 (hkey.symm.trans h)
  simp [hentries]

lemma WellFormed.isName (hwell : t.WellFormed) (h : t.entry? (place ++ [s]) ≠ none) : IsName s := by
  obtain ⟨e, he⟩ := Option.ne_none_iff_exists'.1 h
  exact hwell.named _ (mem_entries_of_found he) s (by simp)

lemma wellFormed_of_entries
    (h : ∀ e ∈ t.entries, (∀ s ∈ e.1, IsName s) ∧ t.isDirectoryAt e.1.dropLast = true) : t.WellFormed where
  named e he := (h e he).1
  rooted place s hs := by
    obtain ⟨e, he⟩ := Option.ne_none_iff_exists'.1 hs
    have hparent := (h _ (mem_entries_of_found he)).2
    rwa [List.dropLast_concat] at hparent

lemma nodup_eraseDups (names : List String) : names.eraseDups.Nodup := by
  induction hn : names.length using Nat.strong_induction_on generalizing names with
  | _ n ih =>
    cases names with
    | nil => exact List.nodup_nil
    | cons name names =>
      rw [List.eraseDups_cons, List.nodup_cons, List.mem_eraseDups]
      refine ⟨by simp, ih _ ?_ _ rfl⟩
      have hle := List.length_filter_le (fun b => !b == name) names
      rw [List.length_cons] at hn
      omega

lemma mem_subdirectories_iff : s ∈ t.subdirectories place ↔ t.isDirectoryAt (place ++ [s]) = true := by
  rw [subdirectories, List.mem_filter, mem_names_iff, and_iff_right_iff_imp, isDirectoryAt_eq_true_iff]
  intro h
  rw [h]
  exact Option.some_ne_none _

lemma WellFormed.of_mem_subdirectories (hwell : t.WellFormed) (h : s ∈ t.subdirectories place) :
    IsName s ∧ t.isDirectoryAt place = true := by
  have hentry : t.entry? (place ++ [s]) ≠ none := by
    rw [isDirectoryAt_eq_true_iff.1 (mem_subdirectories_iff.1 h)]
    exact Option.some_ne_none _
  exact ⟨hwell.isName hentry, hwell.rooted place s hentry⟩

lemma sorted_subdirectories (t : FileTree) (place : Location) : (t.subdirectories place).SortedLT := by
  have hnames : (t.names place).SortedLT :=
    List.sortedLE_mergeSort.sortedLT_of_nodup ((List.mergeSort_perm _ _).nodup_iff.2 (nodup_eraseDups _))
  exact (hnames.pairwise.filter _).sortedLT

lemma subdirectories_eq {names : List String} (hnames : names.SortedLT)
    (h : ∀ name, t.isDirectoryAt (place ++ [name]) = true ↔ name ∈ names) : t.subdirectories place = names := by
  refine (sorted_subdirectories t place).eq_of_mem_iff hnames fun name => ?_
  rw [mem_subdirectories_iff, h]

lemma subdirectories_pair {a b : String} (hlt : a < b) (ha : t.isDirectoryAt (place ++ [a]) = true)
    (hb : t.isDirectoryAt (place ++ [b]) = true)
    (hother : ∀ name, name ≠ a → name ≠ b → t.isDirectoryAt (place ++ [name]) = false) :
    t.subdirectories place = [a, b] := by
  refine subdirectories_eq (List.pairwise_pair.2 hlt).sortedLT fun name => ?_
  by_cases hfirst : name = a
  · subst hfirst
    exact iff_of_true ha (by simp)
  · by_cases hsecond : name = b
    · subst hsecond
      exact iff_of_true hb (by simp)
    · simp [hother name hfirst hsecond, hfirst, hsecond]

lemma subdirectories_congr (h : ∀ name, t'.entry? (place ++ [name]) = t.entry? (place ++ [name])) :
    t'.subdirectories place = t.subdirectories place := by
  refine subdirectories_eq (sorted_subdirectories t place) fun name => ?_
  rw [mem_subdirectories_iff, isDirectoryAt, isDirectoryAt, h]

end FileTree

end UiCatalog
