import Mathlib
import UiCatalog.Demo.Examples
import UiCatalog.Proofs.Blanks
import UiCatalog.Proofs.BytePlaces

/-!
# Common indentation

What is cut off a line is blank, so `dedent` keeps what can be seen, line by line. Blank lines at both ends and blanks
at the end of the text do not count (`dedent_eq_dedentLines`): the result only depends on how much further each line
is indented than the others, and its own lines have no indentation in common.
-/
namespace UiCatalog.Code

open Text

/-- The lines that are not blank, each without the blanks around it. -/
def visibleLines (t : List Char) : List (List Char) :=
  ((lines t).filter fun line => !isBlankText line).map trim

/-- Lines without their common indentation, one below the other, and without blanks at both ends. -/
def dedentLines (ls : List (List Char)) : List Char :=
  trim (join ['\n'] (ls.map (cutIndent (commonIndent ls))))

variable {n : Nat} {c : Char} {t u w w' line : List Char} {ls lead rest : List (List Char)}

/-! ## Blank and visible lines -/

lemma exists_visible (h : ¬ IsSpace line) : ∃ w c t, IsSpace w ∧ isBlank c = false ∧ line = w ++ c :: t := by
  have hne : line.dropWhile isBlank ≠ [] := fun hnil => h (List.dropWhile_eq_nil_iff.1 hnil)
  refine ⟨line.takeWhile isBlank, (line.dropWhile isBlank).head hne, (line.dropWhile isBlank).tail,
    fun _ hc => List.mem_takeWhile_imp hc, List.head_dropWhile_not isBlank hne, ?_⟩
  rw [List.cons_head_tail, List.takeWhile_append_dropWhile]

lemma isBlankText_append_cons (hc : isBlank c = false) (t u : List Char) : isBlankText (t ++ c :: u) = false := by
  simp [isBlankText, hc]

/-- How far a line is indented is settled before its first character that is not blank. -/
lemma indentSize_append_cons (hc : isBlank c = false) (t u : List Char) : indentSize (t ++ c :: u) = indentSize t := by
  rw [indentSize, indentSize, List.takeWhile_append]
  split_ifs with ht
  · rw [List.takeWhile_cons_of_neg (by simp [hc]), List.append_nil, (List.takeWhile_prefix _).eq_of_length ht]
  · rfl

lemma indentSize_le (t : List Char) : indentSize t ≤ byteSize t := by
  have hsplit : byteSize t = indentSize t + byteSize (t.dropWhile isBlank) := by
    rw [indentSize, ← byteSize_append, List.takeWhile_append_dropWhile]
  omega

/-- The common indentation is that of some visible line, and no visible line has less. -/
lemma commonIndent_eq_iff (h : ∃ line ∈ ls, isBlankText line = false) : commonIndent ls = n ↔
    (∃ line ∈ ls, isBlankText line = false ∧ indentSize line = n) ∧
      ∀ line ∈ ls, isBlankText line = false → n ≤ indentSize line := by
  have hmin (m : Nat) : ((ls.filter fun line => !isBlankText line).map indentSize).min? = some m ↔
      (∃ line ∈ ls, isBlankText line = false ∧ indentSize line = m) ∧
        ∀ line ∈ ls, isBlankText line = false → m ≤ indentSize line := by
    simp only [List.min?_eq_some_iff, List.mem_map, List.mem_filter, Bool.not_eq_true', and_assoc]
    refine and_congr_right fun _ => ⟨fun hleast line hline hvisible => hleast _ ⟨line, hline, hvisible, rfl⟩, ?_⟩
    rintro hleast _ ⟨line, hline, hvisible, rfl⟩
    exact hleast line hline hvisible
  rw [← hmin, commonIndent]
  cases hindent : ((ls.filter fun line => !isBlankText line).map indentSize).min? with
  | some m => simp
  | none =>
    obtain ⟨line, hline, hvisible⟩ := h
    rw [List.min?_eq_none_iff, List.map_eq_nil_iff, List.filter_eq_nil_iff] at hindent
    exact absurd (hindent line hline) (by simp [hvisible])

lemma commonIndent_le (hline : line ∈ ls) (hvisible : isBlankText line = false) : commonIndent ls ≤ indentSize line :=
  ((commonIndent_eq_iff ⟨line, hline, hvisible⟩).1 rfl).2 line hline hvisible

/-! ## What is cut off -/

/-- From its first visible character on a line is kept. -/
lemma cutIndent_append_cons (hc : isBlank c = false) (hn : n ≤ indentSize t) (u : List Char) :
    cutIndent n (t ++ c :: u) = cutIndent n t ++ c :: u := by
  rw [cutIndent, cutIndent, dropBytes?_append_of_le (hn.trans (indentSize_le t)), trimStart_append_cons hc]
  cases dropBytes? n t <;> rfl

lemma cutIndent_subset (n : Nat) (line : List Char) : cutIndent n line ⊆ line := by
  rw [cutIndent]
  cases h : dropBytes? n line with
  | none => exact (List.dropWhile_sublist _).subset
  | some t => exact (suffix_of_dropBytes? h).subset

lemma isSpace_cutIndent (hline : IsSpace line) (n : Nat) : IsSpace (cutIndent n line) :=
  fun c hc => hline c (cutIndent_subset n line hc)

/-- What is cut off is blank. -/
lemma trim_cutIndent (h : isBlankText line = false → n ≤ indentSize line) : trim (cutIndent n line) = trim line := by
  by_cases hline : IsSpace line
  · rw [trim_of_isSpace hline, trim_of_isSpace (isSpace_cutIndent hline n)]
  · obtain ⟨w, c, t, hw, hc, rfl⟩ := exists_visible hline
    have hn := h (isBlankText_append_cons hc w t)
    rw [indentSize_append_cons hc] at hn
    rw [cutIndent_append_cons hc hn, trim_space_append hw, trim_space_append (isSpace_cutIndent hw n)]

@[simp] lemma cutIndent_zero (line : List Char) : cutIndent 0 line = line := by
  simp [cutIndent, dropBytes?]

/-! ## Lines between blank lines -/

lemma isSpace_flatMap {f : List Char → List Char} (h : ∀ line ∈ ls, IsSpace (f line)) : IsSpace (ls.flatMap f) := by
  intro c hc
  obtain ⟨line, hline, hc⟩ := List.mem_flatMap.1 hc
  exact h line hline c hc

lemma dedentLines_of_blank (h : ∀ line ∈ ls, IsSpace line) : dedentLines ls = [] := by
  refine trim_of_isSpace fun c hc => ?_
  rcases List.mem_append.1 (join_subset _ _ hc) with hc | hc
  · obtain rfl := List.mem_singleton.1 hc
    decide
  · obtain ⟨_, hcut, hc⟩ := List.mem_flatten.1 hc
    obtain ⟨line, hline, rfl⟩ := List.mem_map.1 hcut
    exact isSpace_cutIndent (h line hline) _ c hc

lemma commonIndent_surrounded (hlead : ∀ line ∈ lead, IsSpace line) (hrest : ∀ line ∈ rest, IsSpace line)
    (hc : isBlank c = false) :
    commonIndent (lead ++ (ls ++ (t ++ c :: w) :: rest)) = commonIndent (ls ++ [t ++ [c]]) := by
  have hnone {ls : List (List Char)} (h : ∀ line ∈ ls, IsSpace line) :
      (ls.filter fun line => !isBlankText line) = [] :=
    List.filter_eq_nil_iff.2 fun line hline => by simpa [← isBlankText_iff] using h line hline
  simp [commonIndent, hnone hlead, hnone hrest, isBlankText_append_cons hc, indentSize_append_cons hc]

/-- Blank lines at both ends make no difference, nor do blanks at the end of the last visible line. -/
lemma dedentLines_surrounded (hlead : ∀ line ∈ lead, IsSpace line) (hrest : ∀ line ∈ rest, IsSpace line)
    (hc : isBlank c = false) (hw : IsSpace w) :
    dedentLines (lead ++ (ls ++ (t ++ c :: w) :: rest)) = dedentLines (ls ++ [t ++ [c]]) := by
  have hn : commonIndent (ls ++ [t ++ [c]]) ≤ indentSize t := by
    rw [← indentSize_append_cons hc t []]
    exact commonIndent_le (by simp) (isBlankText_append_cons hc t [])
  rw [dedentLines, dedentLines, commonIndent_surrounded hlead hrest hc]
  generalize commonIndent (ls ++ [t ++ [c]]) = n at hn
  have hcut {ls : List (List Char)} (h : ∀ line ∈ ls, IsSpace line) : ∀ line ∈ ls.map (cutIndent n), IsSpace line :=
    List.forall_mem_map.2 fun line hline => isSpace_cutIndent (h line hline) n
  have hbefore : IsSpace ((lead.map (cutIndent n)).flatMap (· ++ ['\n'])) :=
    isSpace_flatMap fun line hline => isSpace_append (hcut hlead line hline) (by decide)
  have hbehind : IsSpace (w ++ (rest.map (cutIndent n)).flatMap (['\n'] ++ ·)) :=
    isSpace_append hw (isSpace_flatMap fun line hline => isSpace_append (by decide) (hcut hrest line hline))
  have hmore : join ['\n'] ((lead ++ (ls ++ (t ++ c :: w) :: rest)).map (cutIndent n)) =
      (lead.map (cutIndent n)).flatMap (· ++ ['\n']) ++ (((ls.map (cutIndent n)).flatMap (· ++ ['\n']) ++
        cutIndent n t ++ [c]) ++ (w ++ (rest.map (cutIndent n)).flatMap (['\n'] ++ ·))) := by
    rw [← List.append_assoc lead, List.map_append, List.map_append, List.map_cons, cutIndent_append_cons hc hn,
      join_append_cons, List.flatMap_append]
    simp
  have hless : join ['\n'] ((ls ++ [t ++ [c]]).map (cutIndent n)) =
      (ls.map (cutIndent n)).flatMap (· ++ ['\n']) ++ cutIndent n t ++ [c] := by
    rw [List.map_append, List.map_singleton, cutIndent_append_cons hc hn, join_append_cons]
    simp
  rw [hmore, hless, trim_space_append hbefore, trim_append_space hbehind]

/-! ## The lines of a text -/

lemma exists_trimLineFeeds (t : List Char) :
    ∃ n m, t = List.replicate n '\n' ++ (trimLineFeeds t ++ List.replicate m '\n') := by
  have hfeeds {u : List Char} (h : ∀ c ∈ u, isLineFeed c = true) : u = List.replicate u.length '\n' :=
    List.eq_replicate_length.2 fun c hc => by simpa [isLineFeed] using h c hc
  refine ⟨(t.takeWhile isLineFeed).length, ((t.dropWhile isLineFeed).reverse.takeWhile isLineFeed).length, ?_⟩
  rw [← hfeeds fun c hc => List.mem_takeWhile_imp hc, trimLineFeeds,
    ← List.reverse_replicate, ← hfeeds fun c hc => List.mem_takeWhile_imp hc, ← List.reverse_append,
    List.takeWhile_append_dropWhile, List.reverse_reverse, List.takeWhile_append_dropWhile]

lemma splitAt_feeds_append (n : Nat) (t : List Char) :
    splitAt '\n' (List.replicate n '\n' ++ t) = List.replicate n [] ++ splitAt '\n' t := by
  induction n with
  | zero => rfl
  | succ n ih =>
    rw [List.replicate_succ, List.cons_append, splitAt, if_pos rfl, ih]
    rfl

/-- What is visible goes to the line under way. -/
lemma splitAt_visible_cons (hc : isBlank c = false) (h : splitAt '\n' t = line :: ls) :
    splitAt '\n' (c :: t) = (c :: line) :: ls := by
  have hfeed : c ≠ '\n' := by rintro rfl; exact absurd hc (by decide)
  rw [splitAt, if_neg hfeed, h]

/-- The last line of a text that ends with something visible is the last piece between its line feeds. -/
lemma lines_concat (hc : isBlank c = false) (h : splitAt '\n' t = ls ++ [line]) :
    lines (t ++ [c]) = ls.map dropReturn ++ [line ++ [c]] := by
  rw [lines, splitAt_append_of h (splitAt_visible_cons hc rfl)]
  simp

lemma isSpace_of_mem_splitAt (ht : IsSpace t) (h : line ∈ splitAt '\n' t) : IsSpace line :=
  fun c hc => ht c (subset_of_mem_splitAt h hc)

/-- A text is cut as the lines between all its line feeds are, whatever blank ones there are at both ends. -/
lemma dedent_eq_dedentLines (code : List Char) : dedent code = dedentLines ((splitAt '\n' code).map dropReturn) := by
  obtain ⟨n, m, hfeeds⟩ := exists_trimLineFeeds code
  obtain ⟨w, hw, hend⟩ := exists_space_of_trimEnd (trimLineFeeds code)
  have hspace : IsSpace (w ++ List.replicate m '\n') := isSpace_append hw (isSpace_replicate (by decide) m)
  have hblank {t : List Char} (ht : IsSpace t) : ∀ line ∈ (splitAt '\n' t).map dropReturn, IsSpace line :=
    List.forall_mem_map.2 fun piece hpiece c hc => isSpace_of_mem_splitAt ht hpiece c (dropReturn_subset piece hc)
  rw [hend, List.append_assoc] at hfeeds
  change dedentLines (lines (trimEnd (trimLineFeeds code))) = _
  by_cases hnil : trimEnd (trimLineFeeds code) = []
  · have hcode : IsSpace code := by
      rw [hfeeds, hnil]
      exact isSpace_append (isSpace_replicate (by decide) n) hspace
    rw [dedentLines_of_blank (hblank hcode), hnil]
    rfl
  · obtain ⟨us, c, hlast, hc⟩ := exists_last_of_trimEnd hnil
    obtain ⟨ps, p, hp⟩ := exists_last_piece '\n' us
    obtain ⟨q, qs, hq⟩ := List.exists_cons_of_ne_nil (splitAt_ne_nil '\n' (w ++ List.replicate m '\n'))
    have hreturn : c ≠ '\r' := by rintro rfl; exact absurd hc (by decide)
    have hpieces : (splitAt '\n' code).map dropReturn = List.replicate n [] ++
        (ps.map dropReturn ++ (p ++ c :: dropReturn q) :: qs.map dropReturn) := by
      rw [hfeeds, hlast, splitAt_feeds_append, List.append_assoc, List.singleton_append,
        splitAt_append_of hp (splitAt_visible_cons hc hq), List.map_append, List.map_append, List.map_cons,
        dropReturn_append_cons hreturn, List.map_replicate]
      rfl
    have hrest := hblank hspace
    rw [hq, List.map_cons, List.forall_mem_cons] at hrest
    have hlead : ∀ line ∈ List.replicate n ([] : List Char), IsSpace line := fun line hline =>
      List.eq_of_mem_replicate hline ▸ isSpace_nil
    rw [hlast, lines_concat hc hp, hpieces, dedentLines_surrounded hlead hrest.2 hc hrest.1]

/-! ## Visible lines are kept -/

lemma visibleLines_eq (t : List Char) :
    visibleLines t = ((splitAt '\n' t).map trim).filter fun line => !line.isEmpty := by
  rw [← filter_map_lines trim_dropReturn rfl, List.filter_map, visibleLines]
  simp only [Function.comp_def, isEmpty_trim]

/-- Blanks around a text are no visible lines, and no part of one. -/
lemma visibleLines_padded (hw : IsSpace w) (hw' : IsSpace w') (t : List Char) :
    visibleLines (w ++ (t ++ w')) = visibleLines t := by
  have hnone {ls : List (List Char)} (h : ∀ line ∈ ls, IsSpace line) :
      ((ls.map trim).filter fun line => !line.isEmpty) = [] := by
    rw [List.filter_eq_nil_iff, List.forall_mem_map]
    intro line hline
    simp [trim_of_isSpace (h line hline)]
  have hleft (u : List Char) : visibleLines (w ++ u) = visibleLines u := by
    obtain ⟨ps, p, hp⟩ := exists_last_piece '\n' w
    obtain ⟨q, qs, hq⟩ := List.exists_cons_of_ne_nil (splitAt_ne_nil '\n' u)
    have hblank : ∀ line ∈ ps ++ [p], IsSpace line := fun line hline => isSpace_of_mem_splitAt hw (hp ▸ hline)
    rw [List.forall_mem_append, List.forall_mem_singleton] at hblank
    rw [visibleLines_eq, visibleLines_eq, splitAt_append_of hp hq, hq, List.map_append, List.filter_append,
      hnone hblank.1, List.map_cons, trim_space_append hblank.2]
    rfl
  have hright : visibleLines (t ++ w') = visibleLines t := by
    obtain ⟨ps, p, hp⟩ := exists_last_piece '\n' t
    obtain ⟨q, qs, hq⟩ := List.exists_cons_of_ne_nil (splitAt_ne_nil '\n' w')
    have hblank : ∀ line ∈ q :: qs, IsSpace line := fun line hline => isSpace_of_mem_splitAt hw' (hq ▸ hline)
    rw [List.forall_mem_cons] at hblank
    rw [visibleLines_eq, visibleLines_eq, splitAt_append_of hp hq, hp, List.append_cons, List.map_append,
      List.map_append, List.filter_append, hnone hblank.2, List.append_nil, List.map_singleton,
      trim_append_space hblank.1, ← List.map_singleton, ← List.map_append]
  rw [hleft, hright]

lemma visibleLines_trim (t : List Char) : visibleLines (trim t) = visibleLines t := by
  obtain ⟨w, w', hw, hw', ht⟩ := exists_trim t
  conv_rhs => rw [ht, visibleLines_padded hw hw']

lemma visibleLines_dedent (code : List Char) : visibleLines (dedent code) = visibleLines code := by
  have hne : (splitAt '\n' code).map dropReturn ≠ [] := by simp [splitAt_ne_nil]
  have hfeed : ∀ line ∈ (splitAt '\n' code).map dropReturn, '\n' ∉ line :=
    List.forall_mem_map.2 fun piece hpiece hmem => not_mem_of_mem_splitAt hpiece (dropReturn_subset piece hmem)
  have htrim : ((splitAt '\n' code).map dropReturn).map trim = (splitAt '\n' code).map trim := by
    rw [List.map_map]
    exact List.map_congr_left fun piece _ => trim_dropReturn piece
  rw [dedent_eq_dedentLines, dedentLines, visibleLines_trim, visibleLines_eq, visibleLines_eq, ← htrim]
  generalize (splitAt '\n' code).map dropReturn = ls at hne hfeed
  rw [splitAt_join (by simpa using hne)]
  · rw [List.map_map]
    congr 1
    exact List.map_congr_left fun line hline => trim_cutIndent (commonIndent_le hline)
  · exact List.forall_mem_map.2 fun line hline hmem => hfeed line hline (cutIndent_subset _ line hmem)

/-! ## More indentation for all lines -/

lemma byteSize_spaces (n : Nat) : byteSize (List.replicate n ' ') = n := by
  induction n with
  | zero => rfl
  | succ n ih =>
    have hsize : ' '.utf8Size = 1 := by decide
    rw [List.replicate_succ, byteSize_cons, ih, hsize, Nat.add_comm]

lemma isSpace_spaces (n : Nat) : IsSpace (List.replicate n ' ') := isSpace_replicate (by decide) n

lemma dropReturn_indented (n : Nat) (line : List Char) :
    dropReturn (List.replicate n ' ' ++ line) = List.replicate n ' ' ++ dropReturn line := by
  cases line with
  | nil =>
    have hlast : (List.replicate n ' ').getLast? ≠ some '\r' := fun h =>
      absurd (List.eq_of_mem_replicate (List.mem_of_getLast? h)) (by decide)
    simp [dropReturn, hlast]
  | cons c line =>
    rw [dropReturn, dropReturn, List.getLast?_append_of_ne_nil _ (by simp)]
    split_ifs
    · rw [List.dropLast_append_of_ne_nil (by simp)]
    · rfl

lemma indentSize_indented (n : Nat) (line : List Char) :
    indentSize (List.replicate n ' ' ++ line) = n + indentSize line := by
  rw [indentSize, List.takeWhile_append_of_pos (isSpace_spaces n), byteSize_append, byteSize_spaces, indentSize]

lemma cutIndent_indented (m n : Nat) (line : List Char) :
    cutIndent (n + m) (List.replicate n ' ' ++ line) = cutIndent m line := by
  have hdrop := dropBytes?_append (List.replicate n ' ') line m
  rw [byteSize_spaces] at hdrop
  rw [cutIndent, hdrop, trimStart_space_append (isSpace_spaces n), cutIndent]

lemma dedentLines_indented (n : Nat) (ls : List (List Char)) :
    dedentLines (ls.map (List.replicate n ' ' ++ ·)) = dedentLines ls := by
  have hblank (line : List Char) : isBlankText (List.replicate n ' ' ++ line) = isBlankText line := by
    rw [isBlankText, List.all_append, List.all_eq_true.2 (isSpace_spaces n), Bool.true_and, isBlankText]
  by_cases h : ∃ line ∈ ls, isBlankText line = false
  · have hindent : commonIndent (ls.map (List.replicate n ' ' ++ ·)) = n + commonIndent ls := by
      obtain ⟨⟨line, hline, hvisible, hleast⟩, hall⟩ := (commonIndent_eq_iff h).1 rfl
      have hmem := List.mem_map_of_mem (f := (List.replicate n ' ' ++ ·)) hline
      refine (commonIndent_eq_iff ⟨_, hmem, by rwa [hblank]⟩).2 ⟨⟨_, hmem, by rwa [hblank], ?_⟩, ?_⟩
      · rw [indentSize_indented, hleast]
      · rw [List.forall_mem_map]
        intro line hline hvisible
        rw [hblank] at hvisible
        rw [indentSize_indented]
        exact Nat.add_le_add_left (hall line hline hvisible) n
    have hcut : (ls.map (List.replicate n ' ' ++ ·)).map (cutIndent (n + commonIndent ls)) =
        ls.map (cutIndent (commonIndent ls)) := by
      rw [List.map_map]
      exact List.map_congr_left fun line _ => cutIndent_indented _ n line
    rw [dedentLines, dedentLines, hindent, hcut]
  · have hls : ∀ line ∈ ls, IsSpace line := fun line hline =>
      isBlankText_iff.1 (Bool.not_eq_false _ ▸ fun hvisible => h ⟨line, hline, hvisible⟩)
    rw [dedentLines_of_blank hls, dedentLines_of_blank]
    exact List.forall_mem_map.2 fun line hline => isSpace_append (isSpace_spaces n) (hls line hline)

/-! ## Nothing in common any more -/

lemma dedent_subset (code : List Char) : dedent code ⊆ '\n' :: code := by
  rw [dedent_eq_dedentLines]
  intro c hc
  rcases List.mem_append.1 (join_subset _ _ (trim_subset _ hc)) with hc | hc
  · exact List.mem_singleton.1 hc ▸ List.mem_cons_self
  · obtain ⟨_, hcut, hc⟩ := List.mem_flatten.1 hc
    obtain ⟨_, hline, rfl⟩ := List.mem_map.1 hcut
    obtain ⟨piece, hpiece, rfl⟩ := List.mem_map.1 hline
    exact List.mem_cons_of_mem _ (subset_of_mem_splitAt hpiece (dropReturn_subset piece (cutIndent_subset _ _ hc)))

/-- Without carriage returns, a text whose first line starts with something visible has no common indentation. -/
lemma dedent_of_trimmed (hreturn : '\r' ∉ t) (htrim : trim t = t) : dedent t = t := by
  cases t with
  | nil => rfl
  | cons c t =>
    have hc := not_blank_of_trim htrim
    obtain ⟨q, qs, hq⟩ := List.exists_cons_of_ne_nil (splitAt_ne_nil '\n' t)
    have hsplit := splitAt_visible_cons hc hq
    have hlines : (splitAt '\n' (c :: t)).map dropReturn = splitAt '\n' (c :: t) := by
      conv_rhs => rw [← List.map_id (splitAt '\n' (c :: t))]
      refine List.map_congr_left fun piece hpiece => if_neg fun hlast => hreturn ?_
      exact subset_of_mem_splitAt hpiece (List.mem_of_getLast? hlast)
    have hindent : commonIndent (splitAt '\n' (c :: t)) = 0 := by
      have hle : commonIndent (splitAt '\n' (c :: t)) ≤ indentSize (c :: q) :=
        commonIndent_le (by simp [hsplit]) (isBlankText_append_cons hc [] q)
      have hzero : indentSize (c :: q) = 0 := indentSize_append_cons hc [] q
      omega
    have hcut : (splitAt '\n' (c :: t)).map (cutIndent 0) = splitAt '\n' (c :: t) := by simp [funext cutIndent_zero]
    rw [dedent_eq_dedentLines, hlines, dedentLines, hindent, hcut, join_splitAt, htrim]

/--
Common indentation is all that is cut: every visible line is kept, in order. It does not matter how far the code is
indented as a whole, and code without carriage returns that has been cut once is left as it is.
-/
theorem dedent_relative (code : List Char) :
    visibleLines (dedent code) = visibleLines code ∧
    (∀ n, dedent (join ['\n'] ((splitAt '\n' code).map (List.replicate n ' ' ++ ·))) = dedent code) ∧
    ('\r' ∉ code → dedent (dedent code) = dedent code) := by
  refine ⟨visibleLines_dedent code, fun n => ?_, fun hreturn => ?_⟩
  · have hsplit : splitAt '\n' (join ['\n'] ((splitAt '\n' code).map (List.replicate n ' ' ++ ·))) =
        (splitAt '\n' code).map (List.replicate n ' ' ++ ·) := by
      refine splitAt_join (by simp [splitAt_ne_nil]) (List.forall_mem_map.2 fun piece hpiece => ?_)
      have hpiece := not_mem_of_mem_splitAt hpiece
      simp [hpiece]
    have hreturns : ((splitAt '\n' code).map (List.replicate n ' ' ++ ·)).map dropReturn =
        ((splitAt '\n' code).map dropReturn).map (List.replicate n ' ' ++ ·) := by
      rw [List.map_map, List.map_map]
      exact List.map_congr_left fun piece _ => dropReturn_indented n piece
    rw [dedent_eq_dedentLines, hsplit, hreturns, dedentLines_indented, ← dedent_eq_dedentLines]
  · have hnone : '\r' ∉ dedent code := fun hmem => (List.mem_cons.1 (dedent_subset code hmem)).elim (by decide) hreturn
    exact dedent_of_trimmed hnone (by rw [dedent, trim_trim])

/-- Lines indented by blanks of three bytes, where the common indentation ends inside of one. -/
def wideCode : List Char := "\n\u2003<B>\n \n  \u2003x \n".toList

theorem dedent_relative_of_wide :
    '\r' ∉ wideCode ∧ dedent wideCode = "<B>\n\nx".toList ∧
    visibleLines (dedent wideCode) = ["<B>".toList, ['x']] ∧
    dedent "  \n  \u2003<B>\n   \n    \u2003x \n  ".toList = dedent wideCode ∧
    dedent (dedent wideCode) = dedent wideCode := by
  have hreturn : '\r' ∉ wideCode := by decide
  obtain ⟨hlines, hmore, hagain⟩ := dedent_relative wideCode
  exact ⟨hreturn, by decide, hlines.trans (by decide), (hmore 2 :), hagain hreturn⟩

end UiCatalog.Code
