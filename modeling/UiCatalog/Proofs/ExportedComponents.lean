import UiCatalog.Proofs.Declarations
import UiCatalog.Proofs.Precedence

/-!
# The exported components of a source

Four patterns find exported names, and one name may be found by several of them and at several places. A place has
one name (`Occurs.unique`), as names are captured whole and no list starts where a name does, so sorting by places
and keeping the first of each name leaves the names in the order of their first places. A list is one place, and the
sort keeps the order of its items. Whether a secondary component passes a ref on is read off a binding of its name.
-/
namespace UiCatalog.SubComponents

open Text Pattern Code VariantConfig

variable {source s xs ys rest name behind : List Char} {p q : Point} {place : ℕ}

/-! ## Where names are exported -/

/-- The patterns that capture one name. -/
def namePatterns : List Pattern := [exportedFunction, exportedForwardRef, exportedFunctionValue]

/-- A name is exported at a place: captured there, or the last word of the item with that number in the list there. -/
inductive Occurs (source : List Char) (name : String) : ℕ × ℕ → Prop
  | captured {pattern place} : pattern ∈ namePatterns → (place, name.toList) ∈ captured source pattern →
      Occurs source name (place, 0)
  | listed {place items i item} : (place, items) ∈ captured source exportList → (splitAt ',' items)[i]? = some item →
      (words item).getLast? = some name.toList → (∃ c ∈ name.toList.head?, c.isUpper = true) →
      Occurs source name (place, i)

def Earlier (x y : ℕ × ℕ) : Prop := x.1 < y.1 ∨ x.1 = y.1 ∧ x.2 < y.2

/-- The first place of one name is earlier than all places of the other. -/
def Before (source : List Char) (a b : String) : Prop := ∃ x, Occurs source a x ∧ ∀ y, Occurs source b y → Earlier x y

/-- The names in the lists with their places. -/
def itemsOf (list : ℕ × List Char) : List ((ℕ × ℕ) × List Char) :=
  (splitAt ',' list.2).zipIdx.filterMap fun item => (exportedName? item.1).map fun name => ((list.1, item.2), name)

/-- All exported names with their places, those in lists last. -/
def placed (source : List Char) : List ((ℕ × ℕ) × List Char) :=
  (namePatterns.flatMap (captured source)).map (fun e => ((e.1, 0), e.2)) ++
    (captured source exportList).flatMap itemsOf

/-! ## First places -/

/-- Sorting by a key keeps the order of what has the same key. -/
lemma pairwise_mergeSort_key {α : Type} (key : α → ℕ) {R : α → α → Prop} {l : List α}
    (h : l.Pairwise fun x y => key x = key y → R x y) :
    (l.mergeSort fun x y => decide (key x ≤ key y)).Pairwise fun x y => key x < key y ∨ key x = key y ∧ R x y := by
  have htrans (a b c : α) (hab : decide (key a ≤ key b) = true) (hbc : decide (key b ≤ key c) = true) :
      decide (key a ≤ key c) = true := by
    simp only [decide_eq_true_eq] at *
    omega
  have htotal (a b : α) : (decide (key a ≤ key b) || decide (key b ≤ key a)) = true := by
    simp only [Bool.or_eq_true, decide_eq_true_eq]
    omega
  -- what has one key stands in the sorted list as it stands in the list
  have hsame (k : ℕ) : (l.mergeSort fun x y => decide (key x ≤ key y)).filter (fun x => key x == k) =
      l.filter fun x => key x == k := by
    have hkeys : (l.filter fun x => key x == k).Pairwise fun x y => decide (key x ≤ key y) = true := by
      refine List.pairwise_of_forall_mem_list fun x hx y hy => ?_
      have hxk := List.of_mem_filter hx
      have hyk := List.of_mem_filter hy
      simp only [beq_iff_eq] at hxk hyk
      simp [hxk, hyk]
    have hsub := (List.sublist_mergeSort htrans htotal hkeys List.filter_sublist).filter fun x => key x == k
    simp only [List.filter_filter, Bool.and_self] at hsub
    exact (hsub.eq_of_length ((List.mergeSort_perm l _).filter _).length_eq.symm).symm
  refine List.pairwise_iff_forall_sublist.2 fun {x y} hxy => ?_
  have hle := List.pairwise_iff_forall_sublist.1 (List.pairwise_mergeSort htrans htotal l) hxy
  rw [decide_eq_true_eq] at hle
  refine hle.lt_or_eq.imp_right fun heq => ⟨heq, ?_⟩
  have hxy' := hxy.filter fun z => key z == key y
  rw [hsame] at hxy'
  simp only [List.filter_cons, heq, beq_self_eq_true, if_true, List.filter_nil] at hxy'
  exact List.pairwise_iff_forall_sublist.1 h (hxy'.trans List.filter_sublist) heq

/-- The names that are kept are those of the list but `primary`, each once and at its first place. -/
lemma secondaryNames_concat (primary : String) (names : List String) (name : String) :
    secondaryNames primary (names ++ [name]) =
      if name = primary ∨ name ∈ secondaryNames primary names then secondaryNames primary names
      else secondaryNames primary names ++ [name] := by
  have hstep : secondaryNames primary (names ++ [name]) =
      if (name = primary || (secondaryNames primary names).contains name) = true then secondaryNames primary names
      else secondaryNames primary names ++ [name] := List.foldl_append
  simpa only [Bool.or_eq_true, decide_eq_true_eq, List.contains_iff_mem] using hstep

lemma mem_secondaryNames {primary name : String} {names : List String} :
    name ∈ secondaryNames primary names ↔ name ≠ primary ∧ name ∈ names := by
  induction names using List.reverseRecOn with
  | nil => simp [secondaryNames]
  | append_singleton names n ih =>
    rw [secondaryNames_concat]
    split_ifs with h
    · rw [ih, List.mem_append, List.mem_singleton]
      refine and_congr_right fun hne => (or_iff_left_of_imp ?_).symm
      rintro rfl
      exact (ih.1 (h.resolve_left hne)).2
    · rw [not_or] at h
      rw [List.mem_append, List.mem_append, List.mem_singleton, ih]
      constructor
      · rintro (⟨hne, hmem⟩ | rfl)
        · exact ⟨hne, .inl hmem⟩
        · exact ⟨h.1, .inr rfl⟩
      · rintro ⟨hne, hmem | rfl⟩
        · exact .inl ⟨hne, hmem⟩
        · exact .inr rfl

lemma nodup_secondaryNames (primary : String) (names : List String) : (secondaryNames primary names).Nodup := by
  induction names using List.reverseRecOn with
  | nil => exact .nil
  | append_singleton names n ih =>
    rw [secondaryNames_concat]
    split_ifs with h
    · exact ih
    · rw [← List.concat_eq_append]
      exact ih.concat (not_or.1 h).2

/-- What is kept stands in the order of first places. -/
lemma pairwise_secondaryNames {α : Type} {R : α → α → Prop} (nameOf : α → String) (primary : String) {l : List α}
    (h : l.Pairwise R) : (secondaryNames primary (l.map nameOf)).Pairwise fun a b =>
      ∃ x ∈ l, nameOf x = a ∧ ∀ y ∈ l, nameOf y = b → R x y := by
  induction l using List.reverseRecOn with
  | nil => exact .nil
  | append_singleton l e ih =>
    obtain ⟨hl, -, hlast⟩ := List.pairwise_append.1 h
    replace hlast : ∀ x ∈ l, R x e := fun x hx => hlast x hx e List.mem_cons_self
    have hkept : (secondaryNames primary (l.map nameOf)).Pairwise fun a b =>
        ∃ x ∈ l ++ [e], nameOf x = a ∧ ∀ y ∈ l ++ [e], nameOf y = b → R x y := by
      refine (ih hl).imp fun ⟨x, hx, hxa, hfirst⟩ => ⟨x, List.mem_append_left _ hx, hxa, fun y hy hyb => ?_⟩
      rcases List.mem_append.1 hy with hy | hy
      · exact hfirst y hy hyb
      · exact List.mem_singleton.1 hy ▸ hlast x hx
    rw [List.map_append, List.map_singleton, secondaryNames_concat]
    split_ifs with hold
    · exact hkept
    · refine List.pairwise_append.2 ⟨hkept, List.pairwise_singleton _ _, fun a ha b hb => ?_⟩
      obtain ⟨x, hx, rfl⟩ := List.mem_map.1 (mem_secondaryNames.1 ha).2
      refine ⟨x, List.mem_append_left _ hx, rfl, fun y hy hyb => ?_⟩
      rcases List.mem_append.1 hy with hy | hy
      · rw [List.mem_singleton] at hb
        rw [not_or] at hold
        exact absurd (mem_secondaryNames.2 ⟨hold.1, hb ▸ hyb ▸ List.mem_map_of_mem hy⟩) hold.2
      · exact List.mem_singleton.1 hy ▸ hlast x hx

/-! ## Places of names -/

lemma exportedName?_eq_some {item name : List Char} :
    exportedName? item = some name ↔ (words item).getLast? = some name ∧ ∃ c ∈ name.head?, c.isUpper = true := by
  rw [exportedName?]
  split
  · next c cs hlast =>
    rw [hlast]
    split_ifs with hc
    · constructor
      · rintro ⟨⟩
        exact ⟨rfl, c, rfl, hc⟩
      · exact And.left
    · simp only [false_iff, Option.some.injEq]
      rintro ⟨rfl, d, hd, hupper⟩
      obtain rfl := Option.some.inj hd
      exact hc hupper
  · next hnot =>
    simp only [reduceCtorEq, false_iff]
    rintro ⟨hlast, c, hc, -⟩
    cases name with
    | nil => cases hc
    | cons d ds => exact hnot d ds hlast

lemma map_itemsOf (list : ℕ × List Char) : (itemsOf list).map (fun e => (e.1.1, e.2)) =
    ((splitAt ',' list.2).filterMap exportedName?).map (list.1, ·) := by
  have hnumbers (items : List (List Char)) (n : ℕ) :
      ((items.zipIdx n).filterMap fun item => (exportedName? item.1).map fun name => ((list.1, item.2), name)).map
        (fun e => (e.1.1, e.2)) = (items.filterMap exportedName?).map (list.1, ·) := by
    induction items generalizing n with
    | nil => rfl
    | cons item items ih =>
      rw [List.zipIdx_cons, List.filterMap_cons, List.filterMap_cons]
      cases exportedName? item with
      | none => exact ih (n + 1)
      | some name => exact congrArg ((list.1, name) :: ·) (ih (n + 1))
  exact hnumbers _ 0

lemma exportedNames_eq (source : List Char) : exportedNames source =
    ((placed source).mergeSort fun x y => decide (x.1.1 ≤ y.1.1)).map fun e => String.ofList e.2 := by
  have hlists : ((captured source exportList).flatMap itemsOf).map (fun e => (e.1.1, e.2)) =
      SubComponents.listed source := by
    rw [List.map_flatMap, SubComponents.listed]
    simp only [map_itemsOf]
  have hplaced : (placed source).map (fun e => (e.1.1, e.2)) =
      namePatterns.flatMap (captured source) ++ SubComponents.listed source := by
    rw [placed, List.map_append, hlists, List.map_map]
    simp only [Function.comp_def, List.map_id']
  have hsort : ((placed source).mergeSort fun x y => decide (x.1.1 ≤ y.1.1)).map (fun e => (e.1.1, e.2)) =
      (namePatterns.flatMap (captured source) ++ SubComponents.listed source).mergeSort
        fun a b => decide (a.1 ≤ b.1) := by
    rw [← hplaced]
    exact List.map_mergeSort fun _ _ _ _ => rfl
  rw [exportedNames]
  change List.map (fun e => String.ofList e.2) ((namePatterns.flatMap (captured source) ++
    SubComponents.listed source).mergeSort _) = _
  rw [← hsort, List.map_map]
  rfl

lemma mem_placed {x : ℕ × ℕ} {name : List Char} :
    (x, name) ∈ placed source ↔ Occurs source (String.ofList name) x := by
  rw [placed, List.mem_append, List.mem_map, List.mem_flatMap]
  constructor
  · rintro (⟨⟨place, _⟩, hcaptured, heq⟩ | ⟨⟨place, items⟩, hlist, hitem⟩)
    · obtain ⟨pattern, hpattern, hmem⟩ := List.mem_flatMap.1 hcaptured
      obtain ⟨rfl, rfl⟩ := Prod.mk.inj heq
      exact .captured hpattern (by simpa using hmem)
    · obtain ⟨⟨item, i⟩, hi, heq⟩ := List.mem_filterMap.1 hitem
      obtain ⟨_, hname, heq⟩ := Option.map_eq_some_iff.1 heq
      obtain ⟨rfl, rfl⟩ := Prod.mk.inj heq
      obtain ⟨hlast, hupper⟩ := exportedName?_eq_some.1 hname
      exact .listed hlist (List.mem_zipIdx_iff_getElem?.1 hi) (by simpa using hlast) (by simpa using hupper)
  · intro h
    cases h with
    | captured hpattern hmem =>
      exact .inl ⟨(_, name), List.mem_flatMap.2 ⟨_, hpattern, by simpa using hmem⟩, rfl⟩
    | listed hlist hi hlast hupper =>
      refine .inr ⟨_, hlist, List.mem_filterMap.2 ⟨(_, _), List.mem_zipIdx_iff_getElem?.2 hi, ?_⟩⟩
      rw [exportedName?_eq_some.2 ⟨by simpa using hlast, by simpa using hupper⟩]
      rfl

/-! ## What is captured -/

/-- An identifier with a capital at its start. -/
def IsCapitalName (name : List Char) : Prop :=
  ∃ c cs, c.isUpper = true ∧ (∀ d ∈ cs, isIdentifierPart d = true) ∧ name = c :: cs

/-- From `p` on there is a text with a blank at its end, and then a name, whole; the groups remember it. -/
def Remembers (p : Point) (groups : List (ℕ × Capture)) : Prop :=
  ∃ lead name behind, p.rest = lead ++ (name ++ behind) ∧ (∃ c ∈ lead.getLast?, isBlank c = true) ∧ IsCapitalName name ∧
    NameEnds behind ∧
    groups = (1, ⟨p.offset + lead.length, p.offset + lead.length + name.length, name ++ behind⟩) :: p.groups

lemma run_capitalName {β : Type} {f : Point → β} {r : β}
    (h : run (group 1 capitalName) p (fun q => some (f q)) = some r) :
    ∃ name behind, p.rest = name ++ behind ∧ IsCapitalName name ∧ NameEnds behind ∧ r = f { p.over name behind with
      groups := (1, ⟨p.offset, p.offset + name.length, name ++ behind⟩) :: p.groups } := by
  change run (one Char.isUpper) p (fun q => run (many isIdentifierPart) q fun q =>
    some (f { q with groups := (1, ⟨p.offset, q.offset, p.rest⟩) :: q.groups })) = some r at h
  cases hp : p.rest with
  | nil => simp [run, hp] at h
  | cons c cs =>
    by_cases hc : c.isUpper = true
    · have hends : NameEnds (cs.dropWhile isIdentifierPart) := by
        intro d hd
        have hstop := List.head?_dropWhile_not isIdentifierPart cs
        rwa [hd] at hstop
      have hsplit : p.rest = c :: cs.takeWhile isIdentifierPart ++ cs.dropWhile isIdentifierPart := by simp [hp]
      rw [run_one hp hc, run_many_of_total, Point.rest_over, Point.over_over, hsplit] at h
      exact ⟨c :: cs.takeWhile isIdentifierPart, cs.dropWhile isIdentifierPart, hp.symm ▸ hsplit, ⟨c, _, hc,
        fun d hd => List.mem_takeWhile_imp hd, rfl⟩, hends, (Option.some.inj h).symm⟩
    · rw [run_one_eq_none hp (by simpa using hc)] at h
      cases h

lemma exists_blank_of_gap {lead w : List Char} (hw : IsGap w) : ∃ c ∈ (lead ++ w).getLast?, isBlank c = true := by
  rw [List.getLast?_append_of_ne_nil lead hw.2, List.getLast?_eq_some_getLast hw.2]
  exact ⟨_, rfl, hw.1 _ (List.getLast_mem hw.2)⟩

@[simp] lemma plain_capitalName : Plain capitalName := ⟨trivial, trivial⟩

lemma spells_capitalName : Spells capitalName xs ↔ IsCapitalName xs := by
  constructor
  · rintro ⟨_, cs, ⟨c, hc, rfl⟩, hcs, rfl⟩
    exact ⟨c, cs, hc, hcs, rfl⟩
  · rintro ⟨c, cs, hc, hcs, rfl⟩
    exact ⟨[c], cs, ⟨c, hc, rfl⟩, hcs, rfl⟩

/-- A captured name of a function goes as far as it can. -/
lemma remembers_of_exportedFunction {found : Match} {before : Option Char} {offset : ℕ}
    (h : matchAt? exportedFunction before offset s = some found) : Remembers ⟨before, offset, s, []⟩ found.groups := by
  have hrun : run (text "export" ++ gap ++ Pattern.optional (text "default" ++ gap) ++
      Pattern.optional (text "async" ++ gap) ++ text "function" ++ gap) ⟨before, offset, s, []⟩
      (fun m => run (group 1 capitalName) m fun q => some (⟨⟨offset, q.offset, s⟩, q.groups⟩ : Match)) = some found := h
  obtain ⟨m, hm, hname⟩ := exists_reaches_of_run hrun
  obtain ⟨lead, _, hspells, hp, rfl⟩ := (reaches_iff_of_plain (by simp)).1 hm
  obtain ⟨lead, w, -, hw, rfl⟩ := hspells
  obtain ⟨name, behind, hrest, hcapital, hends, rfl⟩ := run_capitalName hname
  rw [Point.rest_over] at hrest
  exact ⟨lead ++ w, name, behind, hrest ▸ hp, exists_blank_of_gap (spells_gap_iff.1 hw), hcapital, hends, rfl⟩

/-- A captured name of a binding is followed by the rest of the binding. -/
lemma remembers_of_exportedBinding (h : Reaches exportedBinding p q) : Remembers p q.groups := by
  obtain ⟨_, ⟨_, ⟨_, hlead, m, hname, rfl⟩, hequals⟩, hblanks⟩ := h
  obtain ⟨_, _, hspells, hp, rfl⟩ := (reaches_iff_of_plain (by simp)).1 hlead
  obtain ⟨lead, w, -, hw, rfl⟩ := hspells
  obtain ⟨name, _, hcapital, hr, rfl⟩ := (reaches_iff_of_plain plain_capitalName).1 hname
  obtain ⟨_, behind, hspells, hr', rfl⟩ := (reaches_iff_of_plain plain_annotatedEquals).1 hequals
  obtain ⟨_, _, -, -, rfl⟩ := (reaches_iff_of_plain plain_blanks).1 hblanks
  obtain ⟨u, ascription, hu, hascription, rfl⟩ := spells_annotatedEquals.1 hspells
  simp only [Point.rest_over] at hr hr'
  subst hr'
  have hends : NameEnds (u ++ (ascription ++ ['=']) ++ behind) := by
    have htail := nameEnds_of_bindingTail (v := behind) hu hascription
    simpa using htail
  exact ⟨lead ++ w, name, _, hr ▸ hp, exists_blank_of_gap (spells_gap_iff.1 hw), spells_capitalName.1 hcapital, hends,
    by rw [hr]; rfl⟩

lemma remembers_of_mem_namePatterns {pattern : Pattern} {found : Match} {before : Option Char} {offset : ℕ}
    (hpattern : pattern ∈ namePatterns) (h : matchAt? pattern before offset s = some found) :
    Remembers ⟨before, offset, s, []⟩ found.groups := by
  simp only [namePatterns, List.mem_cons, List.not_mem_nil, or_false] at hpattern
  rcases hpattern with rfl | rfl | rfl
  · exact remembers_of_exportedFunction h
  · obtain ⟨q, ⟨_, ⟨m, hm, hqualifier⟩, hword⟩, rfl⟩ := exists_reaches_of_matchAt? h
    have hgroups : q.groups = m.groups :=
      (groups_of_reaches (groupFree_wholeWord _) hword).trans
        (groups_of_reaches plain_qualifier.groupFree hqualifier)
    exact hgroups ▸ remembers_of_exportedBinding hm
  · obtain ⟨q, ⟨m, hm, hvalue⟩, rfl⟩ := exists_reaches_of_matchAt? h
    have hfree : GroupFree (wholeWord "function" <|>
        (Pattern.char '(' ++ many (noneOf ")") ++ Pattern.char ')' ++ blanks ++
          Pattern.optional (Pattern.char ':' ++ many (noneOf "=")) ++ arrow) <|> (identifier ++ blanks ++ arrow)) :=
      ⟨groupFree_wholeWord _, Plain.groupFree (by simp [arrow]), Plain.groupFree (by simp [arrow])⟩
    exact (groups_of_reaches hfree hvalue) ▸ remembers_of_exportedBinding hm

/-- What a pattern captures, with the match that remembers it. -/
lemma exists_of_mem_captured {pattern : Pattern} (h : (place, name) ∈ captured s pattern) :
    ∃ u v found capture, s = u ++ v ∧ matchAt? pattern u.getLast? u.length v = some found ∧
      found.groups.lookup 1 = some capture ∧ capture.start = place ∧ capture.chars = name := by
  obtain ⟨found, hfound, hcapture⟩ := List.mem_filterMap.1 h
  obtain ⟨capture, hgroup, heq⟩ := Option.map_eq_some_iff.1 hcapture
  obtain ⟨u, v, hs, hmatch⟩ := exists_matchAt?_of_mem_findAll hfound
  exact ⟨u, v, found, capture, hs, hmatch, hgroup, (Prod.mk.inj heq).1, (Prod.mk.inj heq).2⟩

/-- A whole name with a capital stands at the place, and a blank before it. -/
def NameAt (s : List Char) (place : ℕ) (name : List Char) : Prop :=
  ∃ lead behind, s = lead ++ (name ++ behind) ∧ lead.length = place ∧ (∃ c ∈ lead.getLast?, isBlank c = true) ∧
    IsCapitalName name ∧ NameEnds behind

lemma nameAt_of_mem_captured {pattern : Pattern} (hpattern : pattern ∈ namePatterns)
    (h : (place, name) ∈ captured s pattern) : NameAt s place name := by
  obtain ⟨u, v, found, capture, rfl, hmatch, hgroup, rfl, rfl⟩ := exists_of_mem_captured h
  obtain ⟨lead, name, behind, hrest, ⟨c, hc, hblank⟩, hcapital, hends, hgroups⟩ :=
    remembers_of_mem_namePatterns hpattern hmatch
  rw [hgroups, List.lookup_cons_self, Option.some.injEq] at hgroup
  subst hgroup
  simp only at hrest
  rw [chars_of_length rfl]
  refine ⟨u ++ lead, behind, by rw [hrest, List.append_assoc], by simp, ⟨c, ?_, hblank⟩, hcapital, hends⟩
  rw [List.getLast?_append, Option.mem_def.1 hc]
  rfl

/-- The text of a list stands at the place, between its braces. -/
def ListAt (s : List Char) (place : ℕ) (items : List Char) : Prop :=
  ∃ lead behind, s = lead ++ (items ++ '\x7d' :: behind) ∧ lead.length = place ∧ lead.getLast? = some '\x7b' ∧
    '\x7d' ∉ items

/-- A match of a list covers it with its braces, and remembers what is between them. -/
lemma exists_of_matchAt?_exportList {found : Match} {before : Option Char} {offset : ℕ}
    (h : matchAt? exportList before offset s = some found) : ∃ lead items behind,
      s = lead ++ (items ++ '\x7d' :: behind) ∧ lead.getLast? = some '\x7b' ∧ '\x7d' ∉ items ∧
      found.start = offset ∧ found.stop = offset + lead.length + items.length + 1 ∧
      found.groups = [(1, ⟨offset + lead.length, offset + lead.length + items.length, items ++ '\x7d' :: behind⟩)] := by
  obtain ⟨q, ⟨_, ⟨_, hopen, m, hinside, rfl⟩, hclose⟩, rfl⟩ := exists_reaches_of_matchAt? h
  obtain ⟨_, _, hspells, hp, rfl⟩ := (reaches_iff_of_plain (by simp)).1 hopen
  obtain ⟨lead, _, -, hbrace, rfl⟩ := hspells
  obtain rfl := spells_char.1 hbrace
  have hplain : Plain (many (noneOf "\x7d")) := plain_many
  obtain ⟨items, _, hitems, hr, rfl⟩ := (reaches_iff_of_plain hplain).1 hinside
  obtain ⟨_, behind, hspells, hr', rfl⟩ := (reaches_iff_of_plain (plain_char '\x7d')).1 hclose
  obtain rfl := spells_char.1 hspells
  simp only [Point.rest_over] at hr hr'
  subst hr'
  rw [hr] at hp
  exact ⟨lead ++ ['\x7b'], items, behind, hp, by simp, (spells_many_noneOf rfl).1 hitems, rfl, rfl, by rw [hr]; rfl⟩

lemma listAt_of_mem_captured {items : List Char} (h : (place, items) ∈ captured s exportList) :
    ListAt s place items := by
  obtain ⟨u, v, found, capture, rfl, hmatch, hgroup, rfl, rfl⟩ := exists_of_mem_captured h
  obtain ⟨lead, items, behind, rfl, hbrace, hitems, -, -, hgroups⟩ := exists_of_matchAt?_exportList hmatch
  rw [hgroups, List.lookup_cons_self, Option.some.injEq] at hgroup
  subst hgroup
  rw [chars_of_length rfl]
  exact ⟨u ++ lead, behind, by simp, by simp, by rw [List.getLast?_append, hbrace]; rfl, hitems⟩

/-- Lists stand one behind the other. -/
lemma pairwise_exportLists (s : List Char) : (captured s exportList).Pairwise fun a b => a.1 < b.1 := by
  refine List.pairwise_filterMap.2 ((pairwise_findAll exportList s).imp_of_mem fun {m m'} hm hm' hbehind => ?_)
  intro a ha b hb
  obtain ⟨u, v, -, hmatch⟩ := exists_matchAt?_of_mem_findAll hm
  obtain ⟨u', v', -, hmatch'⟩ := exists_matchAt?_of_mem_findAll hm'
  obtain ⟨lead, items, rest, -, -, -, -, hstop, hgroups⟩ := exists_of_matchAt?_exportList hmatch
  obtain ⟨lead', items', rest', -, hbrace, -, hstart, -, hgroups'⟩ := exists_of_matchAt?_exportList hmatch'
  have hne : lead' ≠ [] := by
    rintro rfl
    cases hbrace
  have hpos := List.length_pos_iff.2 hne
  simp only [Match.group?, hgroups, hgroups', List.lookup_cons_self, Option.map_some, Option.some.injEq] at ha hb
  subst ha hb
  simp only
  omega

/-! ## A place has one name -/

lemma IsCapitalName.parts (h : IsCapitalName name) : name ≠ [] ∧ ∀ c ∈ name, isIdentifierPart c = true := by
  obtain ⟨c, cs, hc, hcs, rfl⟩ := h
  have hstart : isIdentifierStart c = true := by simp [isIdentifierStart, Char.isAlpha, hc]
  exact ⟨List.cons_ne_nil c cs, List.forall_mem_cons.2 ⟨isIdentifierPart_of_start hstart, hcs⟩⟩

lemma NameAt.unique {name' : List Char} (h : NameAt s place name) (h' : NameAt s place name') : name = name' := by
  obtain ⟨lead, behind, rfl, rfl, -, hname, hends⟩ := h
  obtain ⟨lead', behind', hs, hlength, -, hname', hends'⟩ := h'
  obtain ⟨-, hrest⟩ := List.append_inj hs hlength.symm
  rw [← takeWhile_append_of_ends hname.parts.2 hends, hrest, takeWhile_append_of_ends hname'.parts.2 hends']

lemma ListAt.unique {items items' : List Char} (h : ListAt s place items) (h' : ListAt s place items') :
    items = items' := by
  obtain ⟨lead, behind, rfl, rfl, -, hitems⟩ := h
  obtain ⟨lead', behind', hs, hlength, -, hitems'⟩ := h'
  obtain ⟨-, hrest⟩ := List.append_inj hs hlength.symm
  exact append_cons_cancel hitems hitems' hrest

/-- No list starts where a name does. -/
lemma NameAt.not_listAt {items : List Char} (h : NameAt s place name) : ¬ ListAt s place items := by
  rintro ⟨lead', behind', hs, hlength, hbrace, -⟩
  obtain ⟨lead, behind, rfl, rfl, ⟨c, hc, hblank⟩, -, -⟩ := h
  obtain ⟨rfl, -⟩ := List.append_inj hs hlength.symm
  obtain rfl := Option.some.inj (hbrace.symm.trans hc)
  exact absurd hblank (by decide)

lemma Occurs.unique {a b : String} {x : ℕ × ℕ} (ha : Occurs source a x) (hb : Occurs source b x) : a = b := by
  cases ha with
  | captured hpattern hmem =>
    have hname := nameAt_of_mem_captured hpattern hmem
    cases hb with
    | captured hpattern' hmem' =>
      exact String.toList_injective (hname.unique (nameAt_of_mem_captured hpattern' hmem'))
    | listed hlist => exact absurd (listAt_of_mem_captured hlist) hname.not_listAt
  | listed hlist hi hlast =>
    have hlistAt := listAt_of_mem_captured hlist
    cases hb with
    | captured hpattern' hmem' => exact absurd hlistAt (nameAt_of_mem_captured hpattern' hmem').not_listAt
    | listed hlist' hi' hlast' =>
      obtain rfl := hlistAt.unique (listAt_of_mem_captured hlist')
      obtain rfl := Option.some.inj (hi.symm.trans hi')
      exact String.toList_injective (Option.some.inj (hlast.symm.trans hlast'))

/-! ## The order of names -/

lemma pairwise_itemsOf (list : ℕ × List Char) : (itemsOf list).Pairwise fun x y => x.1.2 ≤ y.1.2 := by
  refine List.pairwise_filterMap.2 (List.pairwise_iff_getElem.2 fun i j hi hj hij a ha b hb => ?_)
  obtain ⟨_, -, rfl⟩ := Option.map_eq_some_iff.1 ha
  obtain ⟨_, -, rfl⟩ := Option.map_eq_some_iff.1 hb
  simpa using hij.le

lemma place_of_mem_itemsOf {list : ℕ × List Char} {x : (ℕ × ℕ) × List Char} (h : x ∈ itemsOf list) :
    x.1.1 = list.1 := by
  obtain ⟨_, -, hname⟩ := List.mem_filterMap.1 h
  obtain ⟨_, -, rfl⟩ := Option.map_eq_some_iff.1 hname
  rfl

/-- Names with the same place come in the order of their numbers. -/
lemma pairwise_placed (source : List Char) :
    (placed source).Pairwise fun x y => x.1.1 = y.1.1 → x.1.2 ≤ y.1.2 := by
  refine List.pairwise_append.2 ⟨?_, ?_, ?_⟩
  · refine List.pairwise_map.2 (List.pairwise_of_forall fun _ _ _ => Nat.le_refl 0)
  · have hitems (list : ℕ × List Char) : (itemsOf list).Pairwise fun x y => x.1.1 = y.1.1 → x.1.2 ≤ y.1.2 :=
      (pairwise_itemsOf list).imp fun {x y} hle (_ : x.1.1 = y.1.1) => hle
    refine List.pairwise_flatMap.2 ⟨fun list _ => hitems list, ?_⟩
    refine (pairwise_exportLists source).imp fun {a b} hab x hx y hy heq => ?_
    rw [place_of_mem_itemsOf hx, place_of_mem_itemsOf hy] at heq
    omega
  · rintro _ hx y - -
    obtain ⟨e, -, rfl⟩ := List.mem_map.1 hx
    exact Nat.zero_le _

lemma mem_exportedNames {n : String} : n ∈ exportedNames source ↔ ∃ x, Occurs source n x := by
  rw [exportedNames_eq, List.mem_map]
  constructor
  · rintro ⟨⟨x, name⟩, hmem, rfl⟩
    exact ⟨x, mem_placed.1 (List.mem_mergeSort.1 hmem)⟩
  · rintro ⟨x, hx⟩
    exact ⟨(x, n.toList), List.mem_mergeSort.2 (mem_placed.2 (by simpa using hx)), by simp⟩

lemma Occurs.capital {n : String} {x : ℕ × ℕ} (h : Occurs source n x) : ∃ c ∈ n.toList.head?, c.isUpper = true := by
  cases h with
  | captured hpattern hmem =>
    obtain ⟨-, -, -, -, -, ⟨c, cs, hc, -, hname⟩, -⟩ := nameAt_of_mem_captured hpattern hmem
    exact ⟨c, by rw [hname]; rfl, hc⟩
  | listed _ _ _ hupper => exact hupper

/-- The names that are kept come in the order of their first places. -/
lemma pairwise_before (source : List Char) (primary : String) :
    (secondaryNames primary (exportedNames source)).Pairwise (Before source) := by
  rw [exportedNames_eq]
  have hplaces := pairwise_mergeSort_key (fun x : (ℕ × ℕ) × List Char => x.1.1) (pairwise_placed source)
  have hfirst := pairwise_secondaryNames (fun e => String.ofList e.2) primary hplaces
  refine ((nodup_secondaryNames primary _).and hfirst).imp fun {a b} ⟨hne, x, hx, hxa, hbefore⟩ => ?_
  have hoccurs : Occurs source a x.1 := hxa ▸ mem_placed.1 (List.mem_mergeSort.1 hx)
  refine ⟨x.1, hoccurs, fun y hy => ?_⟩
  have hy' : (y, b.toList) ∈ placed source := mem_placed.2 (by simpa using hy)
  rcases hbefore _ (List.mem_mergeSort.2 hy') (by simp) with hlt | ⟨heq, hle⟩
  · exact .inl hlt
  · refine .inr ⟨heq, hle.lt_of_ne fun hsame => hne ?_⟩
    exact hoccurs.unique (Prod.ext heq hsame ▸ hy)

end UiCatalog.SubComponents

namespace UiCatalog.Descriptor

open Text Pattern Code SubComponents

/-! ## Descriptors of compound components -/

/-- A binding of `name`, with an annotation up to the first equals sign, to the function that passes a ref on. -/
def BindsRef (name source : List Char) : Prop :=
  ∃ before head scope behind, BindingHead name head ∧ (scope = [] ∨ scope = "React.".toList) ∧ WordEnds behind ∧
    source = before ++ (head ++ (scope ++ ("forwardRef".toList ++ behind)))

lemma isMatch_forwardRefBinding {source : List Char} {name : String} :
    (forwardRefBinding name).isMatch source = true ↔ BindsRef name.toList source := by
  have hlead : Plain (bindingHead name ++ qualifier) := by simp
  have hword {p q : Point} : Reaches (wholeWord "forwardRef") p q ↔
      ∃ rest, p.rest = "forwardRef".toList ++ rest ∧ WordEnds rest ∧ q = p.over "forwardRef".toList rest :=
    reaches_wholeWord _ (by simp [isWord]) (by decide)
  rw [isMatch_iff]
  constructor
  · rintro ⟨before, _, q, rfl, m, hm, hend⟩
    obtain ⟨_, _, ⟨head, scope, hhead, hscope, rfl⟩, hp, rfl⟩ := (reaches_iff_of_plain hlead).1 hm
    obtain ⟨behind, hr, hends, rfl⟩ := hword.1 hend
    refine ⟨before, head, scope, behind, spells_bindingHead.1 hhead, spells_qualifier.1 hscope, hends, ?_⟩
    rw [Point.rest_over] at hr
    rw [hr, List.append_assoc] at hp
    exact congrArg (before ++ ·) hp
  · rintro ⟨before, head, scope, behind, hhead, hscope, hends, rfl⟩
    have hspells : Spells (bindingHead name ++ qualifier) (head ++ scope) :=
      ⟨head, scope, spells_bindingHead.2 hhead, spells_qualifier.2 hscope, rfl⟩
    refine ⟨before, head ++ (scope ++ ("forwardRef".toList ++ behind)), _, rfl, _,
      reaches_of_spells hlead hspells (List.append_assoc _ _ _).symm, hword.2 ⟨behind, rfl, hends, rfl⟩⟩

section Frame

variable {α : Type} (view : Descriptor → α)

/-- What a secondary descriptor has beside its properties and description it starts with. -/
lemma buildSub_frame (hv : ∀ d ps, view { d with properties := ps } = view d)
    (hd : ∀ d text, view { d with description := text } = view d) (source : List Char) (package name : String) :
    view (buildSub source package name) = view
      { name
        forwardsRef := (forwardRefBinding name).isMatch source
        importStatement := importStatementOf [name] package } := by
  rw [buildSub, addStandard_frame view hv]
  exact annotate_frame view hv hd source _

end Frame

lemma description_buildSub (source : List Char) (package name : String) : (buildSub source package name).description =
    ((DocBlock.attached? source name).map (·.description)).getD "" := by
  rw [buildSub, addStandard_frame (·.description) fun _ _ => rfl, annotate, addAll_frame (·.description) fun _ _ => rfl]
  cases DocBlock.attached? source name with
  | none => rfl
  | some block => exact addAll_frame (·.description) (fun _ _ => rfl) _ _

/-- What a descriptor of a secondary component says of it. -/
structure Describes (source : List Char) (component : SubComponent) (d : Descriptor) : Prop where
  name : d.name = component.name
  description : d.description = component.description
  forwardsRef : d.forwardsRef = true ↔ BindsRef component.name.toList source
  ref : "ref" ∈ names d.properties ↔ BindsRef component.name.toList source
  variants : d.variants = .empty
  defaultVariants : d.defaultVariants = .empty
  subDescriptors : d.subDescriptors = []

lemma describes_buildSub (source : List Char) (primary package : String) {component : SubComponent}
    (h : component ∈ UiCatalog.subComponents source primary) :
    Describes source component (buildSub source package component.name) := by
  have hforwards : (buildSub source package component.name).forwardsRef = true ↔
      BindsRef component.name.toList source := by
    rw [buildSub_frame (·.forwardsRef) (fun _ _ => rfl) fun _ _ => rfl]
    exact isMatch_forwardRefBinding
  obtain ⟨name, -, rfl⟩ := List.mem_map.1 h
  exact ⟨buildSub_frame (·.name) (fun _ _ => rfl) (fun _ _ => rfl) _ _ _, description_buildSub _ _ _, hforwards,
    (standard_buildSub _ _ _).ref.trans hforwards,
    buildSub_frame (·.variants) (fun _ _ => rfl) (fun _ _ => rfl) _ _ _,
    buildSub_frame (·.defaultVariants) (fun _ _ => rfl) (fun _ _ => rfl) _ _ _,
    buildSub_frame (·.subDescriptors) (fun _ _ => rfl) (fun _ _ => rfl) _ _ _⟩

/-- The names of the secondary components. -/
def secondary (source : List Char) (primary : String) : List String :=
  (UiCatalog.subComponents source primary).map SubComponent.name

lemma secondary_eq (source : List Char) (primary : String) :
    secondary source primary = secondaryNames primary (exportedNames source) := by
  rw [secondary, UiCatalog.subComponents, List.map_map]
  exact List.map_id _

/-- The secondary components are the exported names but the primary one, each once and in the order of first places;
the import line names them all, and a compound descriptor has a descriptor for each and is otherwise the plain one. -/
theorem exported_components (source : List Char) (primary package : String) :
    (secondary source primary).Nodup ∧ primary ∉ secondary source primary ∧
      (∀ n ∈ secondary source primary, ∃ c ∈ n.toList.head?, c.isUpper = true) ∧
      (∀ n, n ∈ secondary source primary ↔ n ≠ primary ∧ ∃ place, Occurs source n place) ∧
      (secondary source primary).Pairwise (Before source) ∧
      (build source primary package).importStatement = "import \x7b " ++
        String.intercalate ", " (primary :: secondary source primary) ++ " \x7d from '" ++ package ++ "';" ∧
      List.Forall₂ (Describes source) (UiCatalog.subComponents source primary)
        (buildCompound source primary package).subDescriptors ∧
      { buildCompound source primary package with subDescriptors := [] } = build source primary package := by
  have hmem (n : String) : n ∈ secondaryNames primary (exportedNames source) ↔
      n ≠ primary ∧ ∃ place, Occurs source n place := by
    rw [mem_secondaryNames, mem_exportedNames]
  have hsubs : (build source primary package).subComponents = UiCatalog.subComponents source primary := by
    rw [build_eq, addStandard_eq]
  rw [secondary_eq]
  refine ⟨nodup_secondaryNames _ _, fun h => ((hmem primary).1 h).1 rfl, fun n hn => ?_, hmem,
    pairwise_before source primary, ?_, ?_, ?_⟩
  · obtain ⟨-, place, hplace⟩ := (hmem n).1 hn
    exact hplace.capital
  · rw [build_eq, addStandard_eq, ← secondary_eq]
    rfl
  · simp only [buildCompound, hsubs]
    exact List.forall₂_map_right_iff.2 (List.forall₂_same.2 fun component hcomponent =>
      describes_buildSub source primary package hcomponent)
  · have hrestored (d : Descriptor) (h : d.subDescriptors = []) : { d with subDescriptors := [] } = d := by
      cases d
      exact congrArg _ h.symm
    exact hrestored _ (subDescriptors_build source primary package)

/-- A declaration without a value. -/
def unboundSource : List Char :=
  "let CardTitle: FC;\nexport const CardFooter = forwardRef(render);\nexport \x7b CardTitle \x7d;".toList

/-- The annotation of a declaration without a value is read up to the equals sign of the next binding. -/
theorem forwardsRef_of_unbound :
    (UiCatalog.subComponents unboundSource "Card").map SubComponent.name = ["CardFooter", "CardTitle"] ∧
      (buildSub unboundSource "@/components/ui" "CardTitle").forwardsRef = true := by
  constructor
  · cbv
  · rw [buildSub_frame (·.forwardsRef) (fun _ _ => rfl) fun _ _ => rfl]
    cbv

end UiCatalog.Descriptor
