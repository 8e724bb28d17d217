import Mathlib
import UiCatalog.Text.Blank

/-!
# Blanks that do not count

White space around a text is cut off by `trim`, and white space between words is no part of them.
-/
namespace UiCatalog.Text

/-- Nothing but blanks, or nothing at all. -/
def IsSpace (w : List Char) : Prop := ∀ c ∈ w, isBlank c = true

/-- A maximal run of characters that are not blank. -/
def IsRun (word : List Char) : Prop := word ≠ [] ∧ ∀ c ∈ word, isBlank c = false

/-- Whether all characters of a text have a property is decided by walking the text: without this instance the search
may settle on the one that tries every character there is. -/
instance decidableForallMem (p : Char → Prop) [DecidablePred p] (t : List Char) : Decidable (∀ c ∈ t, p c) :=
  List.decidableBAll p t

instance : DecidablePred IsSpace := fun w => inferInstanceAs (Decidable (∀ c ∈ w, isBlank c = true))

instance : DecidablePred IsRun := fun word =>
  inferInstanceAs (Decidable (word ≠ [] ∧ ∀ c ∈ word, isBlank c = false))

/-- Words with white space between and around them. -/
inductive SpacedWords : List (List Char) → List Char → Prop
  | space {w} : IsSpace w → SpacedWords [] w
  | last {w word} : IsSpace w → IsRun word → SpacedWords [word] (w ++ word)
  | cons {w word c ws t} : IsSpace w → IsRun word → isBlank c = true → SpacedWords ws t →
      SpacedWords (word :: ws) (w ++ (word ++ c :: t))

variable {w w' t u v word old new : List Char} {c o : Char}

/-- What holds of the characters of ASCII is checked one by one. -/
lemma forall_ascii {p : Char → Prop} (h : ∀ n < 0x80, p (Char.ofNat n)) (hc : c.toNat < 0x80) : p c := by
  have hp := h c.toNat hc
  rwa [Char.ofNat_toNat] at hp

/-! ## Trimming -/

lemma isSpace_nil : IsSpace [] := fun _ h => absurd h List.not_mem_nil

lemma isSpace_append (hw : IsSpace w) (hw' : IsSpace w') : IsSpace (w ++ w') := List.forall_mem_append.2 ⟨hw, hw'⟩

lemma isSpace_replicate (hc : isBlank c = true) (n : Nat) : IsSpace (List.replicate n c) :=
  fun _ hmem => List.eq_of_mem_replicate hmem ▸ hc

lemma not_mem_of_isSpace (hw : IsSpace w) (hc : isBlank c = false) : c ∉ w := fun hmem =>
  absurd (hw c hmem) (by simp [hc])

lemma isBlankText_iff : isBlankText t = true ↔ IsSpace t := List.all_eq_true

lemma trimStart_space_append (hw : IsSpace w) (t : List Char) : trimStart (w ++ t) = trimStart t :=
  List.dropWhile_append_of_pos hw

lemma trimStart_cons (hc : isBlank c = false) (t : List Char) : trimStart (c :: t) = c :: t :=
  List.dropWhile_cons_of_neg (by simp [hc])

lemma trimEnd_append_space (hw : IsSpace w) (t : List Char) : trimEnd (t ++ w) = trimEnd t := by
  have hrev : ∀ c ∈ w.reverse, isBlank c = true := fun c hc => hw c (List.mem_reverse.mp hc)
  rw [trimEnd, List.reverse_append, List.dropWhile_append_of_pos hrev, trimEnd]

/-- Nothing before the last character that is not blank is cut off at the end. -/
lemma trimEnd_append_cons (hc : isBlank c = false) (t u : List Char) :
    trimEnd (t ++ c :: u) = t ++ c :: trimEnd u := by
  have hstop : (c :: t.reverse).dropWhile isBlank = c :: t.reverse := List.dropWhile_cons_of_neg (by simp [hc])
  rw [trimEnd, trimEnd, List.reverse_append, List.reverse_cons, List.append_assoc, List.singleton_append,
    List.dropWhile_append, hstop]
  split_ifs with hu
  · rw [List.isEmpty_iff.mp hu]
    simp
  · simp

lemma trimStart_of_isSpace (hw : IsSpace w) : trimStart w = [] := List.dropWhile_eq_nil_iff.mpr hw

lemma trim_of_isSpace (hw : IsSpace w) : trim w = [] := by
  rw [trim, trimStart_of_isSpace hw]
  rfl

/-- Nothing behind the first character that is not blank is cut off at the start. -/
lemma trimStart_append_cons (hc : isBlank c = false) (t u : List Char) :
    trimStart (t ++ c :: u) = trimStart t ++ c :: u := by
  rw [trimStart, trimStart, List.dropWhile_append, List.dropWhile_cons_of_neg (by simp [hc])]
  split_ifs with ht
  · rw [List.isEmpty_iff.mp ht, List.nil_append]
  · rfl

lemma trim_append_cons (hc : isBlank c = false) (t u : List Char) :
    trim (t ++ c :: u) = trimStart t ++ c :: trimEnd u := by
  rw [trim, trimStart_append_cons hc, trimEnd_append_cons hc]

lemma trim_space_append (hw : IsSpace w) (t : List Char) : trim (w ++ t) = trim t := by
  rw [trim, trimStart_space_append hw, trim]

lemma trim_append_space (hw : IsSpace w) (t : List Char) : trim (t ++ w) = trim t := by
  rw [trim, trim, trimStart, trimStart, List.dropWhile_append]
  split_ifs with ht
  · have hnil : w.dropWhile isBlank = [] := List.dropWhile_eq_nil_iff.mpr hw
    rw [hnil, List.isEmpty_iff.mp ht]
  · exact trimEnd_append_space hw _

lemma trim_cons (hc : isBlank c = false) (t : List Char) : trim (c :: t) = c :: trimEnd t := by
  rw [trim, trimStart_cons hc]
  exact trimEnd_append_cons hc [] t

/-- What starts and ends with something that is not blank is not trimmed. -/
lemma trim_of_ends {ts us : List Char} (hs : t = o :: ts) (ho : isBlank o = false) (hu : t = us ++ [c])
    (hc : isBlank c = false) : trim t = t := by
  rw [trim, hs, trimStart_cons ho, ← hs, hu, trimEnd_append_cons hc]
  rfl

lemma trim_enclosed (ho : isBlank o = false) (hc : isBlank c = false) (t : List Char) :
    trim (o :: (t ++ [c])) = o :: (t ++ [c]) :=
  trim_of_ends rfl ho (List.cons_append.symm) hc

lemma trim_of_isRun (h : IsRun word) : trim word = word := by
  obtain ⟨hne, hword⟩ := h
  exact trim_of_ends (List.cons_head_tail hne).symm (hword _ (List.head_mem hne))
    (List.dropLast_append_getLast hne).symm (hword _ (List.getLast_mem hne))

lemma length_trim_le (t : List Char) : (trim t).length ≤ t.length := by
  have hstart : (trimStart t).length ≤ t.length := (List.dropWhile_sublist _).length_le
  have hend : (trim t).length ≤ (trimStart t).length := by
    have hreverse : (trimStart t).reverse.length = (trimStart t).length := List.length_reverse
    rw [trim, trimEnd, List.length_reverse, ← hreverse]
    exact (List.dropWhile_sublist _).length_le
  omega

lemma isSpace_singleton (hc : ¬ isBlank c = false) : IsSpace [c] := by
  simpa [IsSpace] using hc

/-- What is trimmed ends in something that is not blank. -/
lemma exists_last_of_trim (h : trim t = t) (hne : t ≠ []) : ∃ us c, t = us ++ [c] ∧ isBlank c = false := by
  obtain rfl | ⟨us, c, rfl⟩ := List.eq_nil_or_concat t
  · exact absurd rfl hne
  · refine ⟨us, c, List.concat_eq_append, ?_⟩
    by_contra hc
    rw [List.concat_eq_append, trim_append_space (isSpace_singleton hc)] at h
    have hlen := length_trim_le us
    rw [h, List.length_append, List.length_singleton] at hlen
    omega

lemma not_blank_of_trim (h : trim (c :: t) = c :: t) : isBlank c = false := by
  by_contra hc
  have htrim : trim (c :: t) = trim t := trim_space_append (isSpace_singleton hc) t
  have hlen := length_trim_le t
  rw [← htrim, h, List.length_cons] at hlen
  omega

/-- Only white space is cut off at the end. -/
lemma exists_space_of_trimEnd (t : List Char) : ∃ w, IsSpace w ∧ t = trimEnd t ++ w := by
  refine ⟨(t.reverse.takeWhile isBlank).reverse, fun c hc => ?_, ?_⟩
  · exact List.mem_takeWhile_imp (List.mem_reverse.mp hc)
  · rw [trimEnd, ← List.reverse_append, List.takeWhile_append_dropWhile, List.reverse_reverse]

lemma exists_space_of_trimStart (t : List Char) : ∃ w, IsSpace w ∧ t = w ++ trimStart t :=
  ⟨t.takeWhile isBlank, fun _ hc => List.mem_takeWhile_imp hc, List.takeWhile_append_dropWhile.symm⟩

/-- Where something is left, it ends in something that is not blank. -/
lemma exists_last_of_trimEnd (h : trimEnd t ≠ []) : ∃ us c, trimEnd t = us ++ [c] ∧ isBlank c = false := by
  have hne : t.reverse.dropWhile isBlank ≠ [] := fun hnil => h (by rw [trimEnd, hnil]; rfl)
  refine ⟨(t.reverse.dropWhile isBlank).tail.reverse, (t.reverse.dropWhile isBlank).head hne, ?_,
    List.head_dropWhile_not isBlank hne⟩
  rw [trimEnd, ← List.reverse_cons, List.cons_head_tail]

lemma trim_trimStart (t : List Char) : trim (trimStart t) = trim t := by
  rw [trim, trim, trimStart, trimStart, List.dropWhile_idempotent]

lemma trim_trimEnd (t : List Char) : trim (trimEnd t) = trim t := by
  obtain ⟨w, hw, ht⟩ := exists_space_of_trimEnd t
  conv_rhs => rw [ht, trim_append_space hw]

@[simp] lemma trim_trim (t : List Char) : trim (trim t) = trim t := by
  conv_lhs => rw [trim.eq_1 t, trim_trimEnd, trim_trimStart]

lemma exists_trim (t : List Char) : ∃ w w', IsSpace w ∧ IsSpace w' ∧ t = w ++ (trim t ++ w') := by
  obtain ⟨w, hw, hstart⟩ := exists_space_of_trimStart t
  obtain ⟨w', hw', hend⟩ := exists_space_of_trimEnd (trimStart t)
  exact ⟨w, w', hw, hw', by rw [trim, ← hend, ← hstart]⟩

lemma trim_subset (t : List Char) : trim t ⊆ t := by
  obtain ⟨w, w', -, -, ht⟩ := exists_trim t
  intro c hc
  rw [ht]
  simp [hc]

lemma isEmpty_trim (t : List Char) : (trim t).isEmpty = isBlankText t := by
  rw [Bool.eq_iff_iff, isBlankText_iff, List.isEmpty_iff]
  constructor
  · intro h
    obtain ⟨w, w', hw, hw', ht⟩ := exists_trim t
    rw [ht, h]
    exact isSpace_append hw hw'
  · exact trim_of_isSpace

/-! ## Cutting and joining -/

/-- All of `t` is taken, and no more if what follows does not go on in the same class. -/
lemma takeWhile_append_of_ends {p : Char → Bool} (ht : ∀ c ∈ t, p c = true) (hu : ∀ c ∈ u.head?, p c = false) :
    (t ++ u).takeWhile p = t := by
  rw [List.takeWhile_append_of_pos ht]
  cases u with
  | nil => simp
  | cons c u => simp [hu c rfl]

lemma takeWhile_append_cons (h : c ∉ t) (u : List Char) : (t ++ c :: u).takeWhile (· != c) = t :=
  takeWhile_append_of_ends (fun d hd => by simpa using ne_of_mem_of_not_mem hd h) (by simp)

/-- A text that starts before a character which it does not have ends before it. -/
lemma exists_append_of_not_mem {d : Char} (h : a ++ d :: v = u ++ w) (hd : d ∉ u) : ∃ z, a = u ++ z := by
  rcases List.append_eq_append_iff.1 h with ⟨z, rfl, hz⟩ | ⟨z, rfl, -⟩
  · cases z with
    | nil => exact ⟨[], by simp⟩
    | cons e z =>
      obtain rfl : d = e := (List.cons.inj hz).1
      exact absurd (List.mem_append_right a (.head z)) hd
  · exact ⟨z, rfl⟩

lemma join_cons {pieces : List (List Char)} (sep piece : List Char) (hne : pieces ≠ []) :
    join sep (piece :: pieces) = piece ++ (sep ++ join sep pieces) := by
  obtain ⟨next, pieces, rfl⟩ := List.exists_cons_of_ne_nil hne
  rw [join, List.append_assoc]
  simp

/-- What stands before and behind one of the pieces. -/
lemma join_append_cons (sep piece : List Char) (lead rest : List (List Char)) :
    join sep (lead ++ piece :: rest) = lead.flatMap (· ++ sep) ++ (piece ++ rest.flatMap (sep ++ ·)) := by
  induction lead with
  | nil =>
    induction rest generalizing piece with
    | nil => simp [join]
    | cons next rest ih =>
      have hrest : join sep (next :: rest) = next ++ rest.flatMap (sep ++ ·) := ih next
      rw [List.nil_append, join_cons sep piece (List.cons_ne_nil next rest), hrest, List.flatMap_cons]
      simp
  | cons first lead ih =>
    rw [List.cons_append, join_cons sep first (by simp), ih]
    simp

lemma join_subset (sep : List Char) (pieces : List (List Char)) : join sep pieces ⊆ sep ++ pieces.flatten := by
  induction pieces with
  | nil => exact List.nil_subset _
  | cons piece pieces ih =>
    by_cases hnil : pieces = []
    · subst hnil
      simp [join]
    · rw [join_cons _ _ hnil, List.flatten_cons]
      intro c hc
      have hmore := @ih c
      simp only [List.mem_append] at hc hmore ⊢
      tauto

lemma splitAt_ne_nil (sep : Char) (t : List Char) : splitAt sep t ≠ [] := by
  cases t with
  | nil => simp [splitAt]
  | cons c t =>
    rw [splitAt]
    split_ifs
    · simp
    · split <;> simp

lemma splitAt_of_not_mem {sep : Char} (h : sep ∉ t) : splitAt sep t = [t] := by
  induction t with
  | nil => rfl
  | cons c t ih =>
    rw [List.mem_cons, not_or] at h
    rw [splitAt, if_neg (Ne.symm h.1), ih h.2]

lemma splitAt_append (sep : Char) (t u : List Char) : splitAt sep (t ++ sep :: u) = splitAt sep t ++ splitAt sep u := by
  induction t with
  | nil => simp [splitAt]
  | cons c t ih =>
    rw [List.cons_append, splitAt, splitAt, ih]
    by_cases hc : c = sep
    · rw [if_pos hc, if_pos hc, List.cons_append]
    · obtain ⟨piece, pieces, hpieces⟩ := List.exists_cons_of_ne_nil (splitAt_ne_nil sep t)
      rw [if_neg hc, if_neg hc, hpieces]
      rfl

lemma not_mem_of_mem_splitAt {sep : Char} {piece : List Char} (h : piece ∈ splitAt sep t) : sep ∉ piece := by
  induction t generalizing piece with
  | nil =>
    rw [splitAt, List.mem_singleton] at h
    simp [h]
  | cons c t ih =>
    rw [splitAt] at h
    obtain ⟨first, pieces, hpieces⟩ := List.exists_cons_of_ne_nil (splitAt_ne_nil sep t)
    rw [hpieces] at h ih
    split_ifs at h with hc
    · rcases List.mem_cons.1 h with rfl | h
      · exact List.not_mem_nil
      · exact ih h
    · rcases List.mem_cons.1 h with rfl | h
      · rw [List.mem_cons, not_or]
        exact ⟨Ne.symm hc, ih List.mem_cons_self⟩
      · exact ih (List.mem_cons_of_mem _ h)

lemma join_splitAt (sep : Char) (t : List Char) : join [sep] (splitAt sep t) = t := by
  induction t with
  | nil => rfl
  | cons c t ih =>
    rw [splitAt]
    split_ifs with hc
    · rw [join_cons _ _ (splitAt_ne_nil sep t), ih, hc]
      rfl
    · obtain ⟨piece, pieces, hpieces⟩ := List.exists_cons_of_ne_nil (splitAt_ne_nil sep t)
      rw [hpieces] at ih ⊢
      rw [← ih]
      cases pieces <;> rfl

lemma subset_of_mem_splitAt {sep : Char} {piece : List Char} (h : piece ∈ splitAt sep t) : piece ⊆ t := by
  obtain ⟨lead, rest, hpieces⟩ := List.append_of_mem h
  rw [← join_splitAt sep t, hpieces, join_append_cons]
  intro c hc
  simp [hc]

lemma exists_last_piece (sep : Char) (t : List Char) : ∃ ps p, splitAt sep t = ps ++ [p] :=
  ⟨_, _, (List.dropLast_append_getLast (splitAt_ne_nil sep t)).symm⟩

/-- Pieces are found again when none of them holds what stands between them. -/
lemma splitAt_join {sep : Char} {pieces : List (List Char)} (hne : pieces ≠ []) (h : ∀ piece ∈ pieces, sep ∉ piece) :
    splitAt sep (join [sep] pieces) = pieces := by
  induction pieces with
  | nil => exact absurd rfl hne
  | cons piece pieces ih =>
    obtain ⟨hpiece, hpieces⟩ := List.forall_mem_cons.1 h
    by_cases hlast : pieces = []
    · rw [hlast, join, splitAt_of_not_mem hpiece]
    · rw [join_cons _ _ hlast, List.singleton_append, splitAt_append, splitAt_of_not_mem hpiece, List.singleton_append,
        ih hlast hpieces]

/-- Where two texts meet, the last piece of the first goes over into the first piece of the second. -/
lemma splitAt_append_of {sep : Char} {p q : List Char} {ps qs : List (List Char)} (ht : splitAt sep t = ps ++ [p])
    (hu : splitAt sep u = q :: qs) : splitAt sep (t ++ u) = ps ++ (p ++ q) :: qs := by
  have hjoin : t ++ u = join [sep] (ps ++ (p ++ q) :: qs) := by
    conv_lhs => rw [← join_splitAt sep t, ← join_splitAt sep u, ht, hu, ← List.nil_append (q :: qs)]
    rw [join_append_cons, join_append_cons, join_append_cons]
    simp
  have hp (piece : List Char) (h : piece ∈ ps ++ [p]) : sep ∉ piece := not_mem_of_mem_splitAt (ht ▸ h)
  have hq (piece : List Char) (h : piece ∈ q :: qs) : sep ∉ piece := not_mem_of_mem_splitAt (hu ▸ h)
  rw [hjoin, splitAt_join (by simp)]
  rw [List.forall_mem_append, List.forall_mem_cons] at hp ⊢
  rw [List.forall_mem_cons] at hq
  exact ⟨hp.1, fun h => (List.mem_append.1 h).elim hp.2.1 hq.1, hq.2⟩

lemma dropReturn_subset (line : List Char) : dropReturn line ⊆ line := by
  rw [dropReturn]
  split_ifs
  · exact List.dropLast_subset line
  · exact List.Subset.refl line

lemma dropReturn_append_cons (hc : c ≠ '\r') (t u : List Char) :
    dropReturn (t ++ c :: u) = t ++ c :: dropReturn u := by
  cases u with
  | nil => simp [dropReturn, hc]
  | cons d u =>
    have hlast : (t ++ c :: d :: u).getLast? = (d :: u).getLast? := by
      rw [List.getLast?_append_of_ne_nil t (by simp), List.getLast?_cons_cons]
    rw [dropReturn, dropReturn, hlast]
    split_ifs
    · rw [List.dropLast_append_of_ne_nil (by simp)]
      rfl
    · rfl

/-- What passes over white space at the end of a line reads it as without its carriage return. -/
lemma read_dropReturn {β : Type} {read : List Char → β} (hspace : ∀ line w, IsSpace w → read (line ++ w) = read line)
    (line : List Char) : read (dropReturn line) = read line := by
  rw [dropReturn]
  split_ifs with hlast
  · have hline := List.dropLast_append_getLast? '\r' hlast
    rw [← hspace line.dropLast ['\r'] (by decide), hline]
  · rfl

lemma trim_dropReturn (line : List Char) : trim (dropReturn line) = trim line :=
  read_dropReturn (fun line _ hw => trim_append_space hw line) line

/-- For what reads a line without its carriage return and passes over empty ones, lines are what stands between line
feeds. -/
lemma filter_map_lines {β : Type} {read : List Char → β} {keep : β → Bool}
    (hreturn : ∀ line, read (dropReturn line) = read line) (hempty : keep (read []) = false) (t : List Char) :
    ((lines t).map read).filter keep = ((splitAt '\n' t).map read).filter keep := by
  obtain ⟨pieces, last, hpieces⟩ := exists_last_piece '\n' t
  have hreturns : (pieces.map dropReturn).map read = pieces.map read := by
    rw [List.map_map]
    exact List.map_congr_left fun line _ => hreturn line
  rw [lines, hpieces]
  simp only [List.dropLast_concat, List.getLast?_concat, Option.getD_some, List.map_append, hreturns]
  cases last with
  | nil => simp [hempty]
  | cons c cs => simp

/-! ## Words -/

lemma wordsAfter_space_append (hw : IsSpace w) (t : List Char) : wordsAfter [] (w ++ t) = wordsAfter [] t := by
  induction w with
  | nil => rfl
  | cons c w ih =>
    rw [List.cons_append, wordsAfter, hw c (.head _)]
    exact ih fun c hc => hw c (.tail _ hc)

lemma wordsAfter_append (hword : ∀ c ∈ word, isBlank c = false) (run t : List Char) :
    wordsAfter run (word ++ t) = wordsAfter (word.reverse ++ run) t := by
  induction word generalizing run with
  | nil => rfl
  | cons c word ih =>
    rw [List.cons_append, wordsAfter, hword c (.head _), if_neg Bool.false_ne_true,
      ih (fun c hc => hword c (.tail _ hc)), List.reverse_cons, List.append_assoc]
    rfl

/-- Words are found again whatever white space stands between and around them. -/
theorem words_of_spacedWords {ws : List (List Char)} (h : SpacedWords ws t) : words t = ws := by
  induction h with
  | @space w hw =>
    have hend := wordsAfter_space_append hw []
    rwa [List.append_nil] at hend
  | @last w word hw hword =>
    have hrun := wordsAfter_append hword.2 [] []
    rw [words, wordsAfter_space_append hw, ← List.append_nil word, hrun]
    simp [wordsAfter, hword.1]
  | cons hw hword hc _ ih =>
    rw [words, wordsAfter_space_append hw, wordsAfter_append hword.2, wordsAfter, hc]
    simp only [words] at ih
    simp [hword.1, ih]

lemma wordsAfter_append_space (hw : IsSpace w) (run t : List Char) :
    wordsAfter run (t ++ w) = wordsAfter run t := by
  induction t generalizing run with
  | nil =>
    cases w with
    | nil => rfl
    | cons c w =>
      have hnone : wordsAfter [] w = [] := by
        have hend := wordsAfter_space_append (fun d hd => hw d (.tail _ hd)) []
        rwa [List.append_nil] at hend
      simp only [List.nil_append, wordsAfter, hw c (.head _), hnone, if_true]
  | cons c t ih =>
    rw [List.cons_append, wordsAfter, wordsAfter]
    simp only [ih]

lemma squeeze_padded (hw : IsSpace w) (hw' : IsSpace w') (t : List Char) : squeeze (w ++ (t ++ w')) = squeeze t := by
  rw [squeeze, squeeze, words, words, wordsAfter_space_append hw, wordsAfter_append_space hw']

lemma squeeze_trim (t : List Char) : squeeze (trim t) = squeeze t := by
  obtain ⟨w, w', hw, hw', ht⟩ := exists_trim t
  conv_rhs => rw [ht, squeeze_padded hw hw']

lemma squeeze_of_isRun (h : IsRun word) : squeeze word = word := by
  have hword : words word = [word] := words_of_spacedWords (.last isSpace_nil h)
  rw [squeeze, hword]
  rfl

/-! ## Replacing -/

lemma replace_other_head {c : Char} (hc : old.head? ≠ some c) (hold : old ≠ []) (t : List Char) :
    replace old new (c :: t) = c :: replace old new t := by
  obtain ⟨d, ds, rfl⟩ := List.exists_cons_of_ne_nil hold
  have hd : d ≠ c := fun hd => hc (congrArg some hd)
  rw [replace, replaceFrom, if_neg (by simp [List.isPrefixOf, hd])]
  rfl

lemma replace_other_start {c : Char} (h : ¬ old <+: c :: t) : replace old new (c :: t) = c :: replace old new t := by
  rw [replace, replaceFrom, if_neg (by rwa [List.isPrefixOf_iff_prefix])]
  rfl

/-- Nothing is replaced before the first character of what is looked for. -/
lemma replace_append_of_not_mem (hold : old ≠ []) (h : ∀ c ∈ u, old.head? ≠ some c) (t : List Char) :
    replace old new (u ++ t) = u ++ replace old new t := by
  induction u with
  | nil => rfl
  | cons c u ih =>
    obtain ⟨hc, hu⟩ := List.forall_mem_cons.1 h
    rw [List.cons_append, replace_other_head hc hold, ih hu, List.cons_append]

lemma replace_self_append (hold : old ≠ []) (t : List Char) :
    replace old new (old ++ t) = new ++ replace old new t := by
  have hskip (u : List Char) : replaceFrom old new u.length (u ++ t) = replace old new t := by
    induction u with
    | nil => rfl
    | cons c u ih => exact ih
  obtain ⟨c, cs, rfl⟩ := List.exists_cons_of_ne_nil hold
  rw [replace, List.cons_append, replaceFrom, if_pos (by simp)]
  exact congrArg (new ++ ·) (hskip cs)

lemma replace_eq_self (h : ¬ old <:+: t) : replace old new t = t := by
  induction t with
  | nil => rfl
  | cons c t ih =>
    rw [replace_other_start fun hstart => h hstart.isInfix, ih fun hin => h (hin.trans (List.suffix_cons c t).isInfix)]

end UiCatalog.Text
