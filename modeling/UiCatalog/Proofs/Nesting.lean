import Mathlib.Data.List.Basic
import UiCatalog.Code.Bracket
import UiCatalog.Proofs.Blanks

/-!
# Brackets that close and lists that split

On labelled text, `Level` says that every bracket has its partner. What looks for a bracket, a separator or a
colon passes such text by, unless what it looks for stands there outside all brackets. A `Piece` is text that
reads as such whatever follows it, and the pieces of a list are found again.
-/
namespace UiCatalog.Code

open Text

/-- Every bracket has its partner, and what is code outside all brackets is `free`, but for the brackets. -/
inductive Level : (Char → Prop) → List (Char × Bool) → Prop
  | nil {free} : Level free []
  | skip {free c marked} : Level free marked → Level free ((c, false) :: marked)
  | plain {free c marked} : depthStep c = 0 → free c → Level free marked → Level free ((c, true) :: marked)
  | group {free o c body marked} : opensBracket o = true → closesBracket c = true →
      Level (fun _ => True) body → Level free marked → Level free ((o, true) :: (body ++ (c, true) :: marked))

/-- Text that reads as nested code whatever follows it. -/
structure Piece (free : Char → Prop) (t : List Char) : Prop where
  closed : ∀ rest, mark (t ++ rest) = mark t ++ mark rest
  level : Level free (mark t)

/-- The text does not make a slash right before it the start of a comment. -/
def KeepsSlash (t : List Char) : Prop := ∀ c ∈ t.head?, c ≠ '/' ∧ c ≠ '*'

/-- Text that reads as nested code whatever follows it, as long as its last slash is kept. -/
structure Segment (free : Char → Prop) (t : List Char) : Prop where
  closed : ∀ rest, KeepsSlash rest → mark (t ++ rest) = mark t ++ mark rest
  level : Level free (mark t)

/-- The inside of a string literal in quotes of the given kind. -/
inductive LiteralBody (quote : Char) : List Char → Prop
  | nil : LiteralBody quote []
  | plain {c rest} : c ≠ quote → c ≠ '\\' → LiteralBody quote rest → LiteralBody quote (c :: rest)
  | escape {c rest} : LiteralBody quote rest → LiteralBody quote ('\\' :: c :: rest)

/-- A string literal that is closed. -/
def IsLiteral (t : List Char) : Prop :=
  ∃ quote body, isQuote quote = true ∧ LiteralBody quote body ∧ t = quote :: (body ++ [quote])

/-- A character that opens no region and no bracket. -/
def isPlain (c : Char) : Bool := !isQuote c && c != '/' && depthStep c == 0

variable {free free' : Char → Prop} {marked ms : List (Char × Bool)} {o c sep : Char} {t u rest : List Char}

lemma isQuote_iff : isQuote c = true ↔ c = '\'' ∨ c = '"' ∨ c = '\x60' := by
  simp [isQuote, or_assoc]

/-! ## Levels -/

lemma Level.mono (h : Level free marked) (hf : ∀ c, free c → free' c) : Level free' marked := by
  induction h generalizing free' with
  | nil => exact .nil
  | skip _ ih => exact .skip (ih hf)
  | plain hc hfree _ ih => exact .plain hc (hf _ hfree) (ih hf)
  | group ho hc hbody _ _ ih => exact .group ho hc hbody (ih hf)

lemma Level.append (h : Level free marked) (hms : Level free ms) : Level free (marked ++ ms) := by
  induction h with
  | nil => exact hms
  | skip _ ih => exact .skip (ih hms)
  | plain hc hfree _ ih => exact .plain hc hfree (ih hms)
  | group ho hc hbody _ _ ih =>
    rw [List.cons_append, List.append_assoc]
    exact .group ho hc hbody (ih hms)

lemma level_of_skipped (xs : List Char) : Level free (xs.map fun c => (c, false)) := by
  induction xs with
  | nil => exact .nil
  | cons c xs ih => exact .skip ih

lemma depthStep_of_opens (h : opensBracket o = true) : depthStep o = 1 := if_pos h

lemma not_opens_of_closes (h : closesBracket c = true) : opensBracket c = false := by
  simp only [closesBracket, Bool.or_eq_true, beq_iff_eq] at h
  rcases h with (rfl | rfl) | rfl <;> rfl

lemma depthStep_of_closes (h : closesBracket c = true) : depthStep c = -1 := by
  simp [depthStep, not_opens_of_closes h, h]

/-- Nested text is passed by character by character. It is enough that the function goes on behind every
character that stays above the depth where it starts, and behind one that comes back to that depth when it is
free or closes a bracket. -/
lemma pass_level {γ : Type} (step : Int → List (Char × Bool) → γ) (wrap : Char → γ → γ) (base : Int)
    (h : Level free marked)
    (hskip : ∀ depth c ms, base ≤ depth → step depth ((c, false) :: ms) = wrap c (step depth ms))
    (hcode : ∀ depth c ms, base ≤ depth + depthStep c →
      (depth + depthStep c = base → free c ∨ closesBracket c = true) →
      step depth ((c, true) :: ms) = wrap c (step (depth + depthStep c) ms)) (ms : List (Char × Bool)) :
    step base (marked ++ ms) = marked.foldr (fun m => wrap m.1) (step base ms) := by
  induction h generalizing base ms with
  | nil => rfl
  | skip _ ih =>
    rw [List.cons_append, hskip _ _ _ (Int.le_refl base), ih base hskip hcode]
    rfl
  | @plain _ c _ hc hf _ ih =>
    have hstay : base + depthStep c = base := by rw [hc, Int.add_zero]
    rw [List.cons_append, hcode _ _ _ (Int.le_of_eq hstay.symm) (fun _ => .inl hf), hstay, ih base hskip hcode]
    rfl
  | @group _ o c body marked ho hc _ _ ihb ih =>
    have hup : base + depthStep o = base + 1 := by rw [depthStep_of_opens ho]
    have hdown : base + 1 + depthStep c = base := by rw [depthStep_of_closes hc]; omega
    -- Inside the group the text is one level up, and nothing there comes back to `base`.
    have hinside := ihb (base + 1) (fun depth c ms hd => hskip depth c ms (by omega))
      (fun depth c ms hd _ => hcode depth c ms (by omega) (fun hb => absurd hb (by omega)))
    rw [List.cons_append, List.append_assoc, List.cons_append, hcode _ _ _ (by omega) (fun hb => absurd hb (by omega)),
      hup, hinside, hcode _ _ _ (Int.le_of_eq hdown.symm) (fun _ => .inr hc), hdown, ih base hskip hcode]
    simp

/-- The pieces with a text before the first of them. -/
def prepend (t : List Char) : List (List Char) → List (List Char)
  | [] => [t]
  | piece :: pieces => (t ++ piece) :: pieces

lemma splitMarked_cons (sep : Char) (depth : Int) (c : Char) (isCode : Bool) (ms : List (Char × Bool)) :
    splitMarked sep depth ((c, isCode) :: ms) =
      let depth := if isCode then depth + depthStep c else depth
      if isCode && depth == 0 && c == sep then [] :: splitMarked sep depth ms
      else prepend [c] (splitMarked sep depth ms) := by
  rw [splitMarked]
  rfl

lemma prepend_ne_nil (t : List Char) (pieces : List (List Char)) : prepend t pieces ≠ [] := by
  cases pieces <;> simp [prepend]

lemma prepend_nil {pieces : List (List Char)} (h : pieces ≠ []) : prepend [] pieces = pieces := by
  obtain ⟨piece, pieces, rfl⟩ := List.exists_cons_of_ne_nil h
  rfl

lemma prepend_prepend (t u : List Char) {pieces : List (List Char)} (h : pieces ≠ []) :
    prepend t (prepend u pieces) = prepend (t ++ u) pieces := by
  obtain ⟨piece, pieces, rfl⟩ := List.exists_cons_of_ne_nil h
  simp [prepend]

lemma splitMarked_ne_nil (sep : Char) (depth : Int) (ms : List (Char × Bool)) : splitMarked sep depth ms ≠ [] := by
  cases ms with
  | nil => simp [splitMarked]
  | cons m ms =>
    rw [splitMarked_cons]
    extract_lets depth
    split
    · exact List.cons_ne_nil _ _
    · exact prepend_ne_nil _ _

lemma foldr_prepend (marked : List (Char × Bool)) {pieces : List (List Char)} (h : pieces ≠ []) :
    marked.foldr (fun m => prepend [m.1]) pieces = prepend (marked.map Prod.fst) pieces := by
  obtain ⟨piece, pieces, rfl⟩ := List.exists_cons_of_ne_nil h
  induction marked with
  | nil => rfl
  | cons m marked ih => rw [List.foldr_cons, ih]; rfl

lemma foldr_map_succ (marked : List (Char × Bool)) (n? : Option Nat) :
    marked.foldr (fun _ => Option.map (· + 1)) n? = n?.map (· + marked.length) := by
  induction marked with
  | nil => simp
  | cons m marked ih =>
    rw [List.foldr_cons, ih, Option.map_map]
    rfl

lemma not_bracket_of_depthStep (h : depthStep c = 0) : opensBracket c = false ∧ closesBracket c = false := by
  cases ho : opensBracket c <;> cases hc : closesBracket c <;> simp [depthStep, ho, hc] at h ⊢

lemma ne_of_closes (hsep : depthStep sep = 0) (h : closesBracket c = true) : c ≠ sep := by
  rintro rfl
  exact absurd h (by simp [(not_bracket_of_depthStep hsep).2])

/-- Nested text goes to the piece under way as a whole, if no separator stands in it outside all brackets. -/
lemma splitMarked_append (hsep : depthStep sep = 0) (h : Level (· ≠ sep) marked) (ms : List (Char × Bool)) :
    splitMarked sep 0 (marked ++ ms) = prepend (marked.map Prod.fst) (splitMarked sep 0 ms) := by
  rw [pass_level (splitMarked sep) (fun c => prepend [c]) 0 h, foldr_prepend marked (splitMarked_ne_nil sep 0 ms)]
  · intro depth c ms _
    simp [splitMarked_cons]
  · intro depth c ms _ hback
    rw [splitMarked_cons]
    have hne : (depth + depthStep c == 0 && c == sep) = false := by
      by_cases h0 : depth + depthStep c = 0
      · have hc : c ≠ sep := (hback h0).elim id (ne_of_closes hsep)
        simp [hc]
      · simp [h0]
    simp [hne]

/-- Nested text does not have the colon that is looked for, if none stands in it outside all brackets. -/
lemma colonOffset?_append (h : Level (· ≠ ':') marked) (ms : List (Char × Bool)) :
    colonOffset? 0 (marked ++ ms) = (colonOffset? 0 ms).map (· + marked.length) := by
  rw [pass_level colonOffset? (fun _ => Option.map (· + 1)) 0 h, foldr_map_succ]
  · intro depth c ms _
    simp [colonOffset?]
  · intro depth c ms _ hback
    rw [colonOffset?]
    have hne : (depth + depthStep c == 0 && c == ':') = false := by
      by_cases h0 : depth + depthStep c = 0
      · have hc : c ≠ ':' := (hback h0).elim id (ne_of_closes (by decide))
        simp [hc]
      · simp [h0]
    simp [hne]

/-- Nested text has no bracket that closes an outer one. -/
lemma closingOffset?_append (h : Level free marked) (ms : List (Char × Bool)) :
    closingOffset? 1 (marked ++ ms) = (closingOffset? 1 ms).map (· + marked.length) := by
  refine (pass_level (fun depth => closingOffset? depth.toNat) (fun _ => Option.map (· + 1)) 1 h ?_ ?_ ms).trans
    (foldr_map_succ marked _)
  · intro depth c ms _
    simp [closingOffset?]
  · intro depth c ms hd _
    rw [closingOffset?]
    cases ho : opensBracket c with
    | true =>
      have hup : (depth + depthStep c).toNat = depth.toNat + 1 := by
        rw [depthStep_of_opens ho] at hd ⊢
        omega
      simp [hup]
    | false =>
      cases hc : closesBracket c with
      | true =>
        rw [depthStep_of_closes hc] at hd ⊢
        have hlow : ¬ depth.toNat ≤ 1 := by omega
        have hdown : (depth + -1).toNat = depth.toNat - 1 := by omega
        simp [hlow, hdown]
      | false => simp [depthStep, ho, hc]

/-- The pieces of a text, with the separators between them, are the text. -/
lemma join_splitMarked (sep : Char) (depth : Int) (ms : List (Char × Bool)) :
    join [sep] (splitMarked sep depth ms) = ms.map Prod.fst := by
  induction ms generalizing depth with
  | nil => rfl
  | cons m ms ih =>
    obtain ⟨c, isCode⟩ := m
    rw [splitMarked_cons, List.map_cons]
    extract_lets depth'
    split
    · next hsep =>
      simp only [Bool.and_eq_true, beq_iff_eq] at hsep
      rw [join_cons _ _ (splitMarked_ne_nil _ _ _), ih, hsep.2]
      rfl
    · have hrest := ih depth'
      obtain ⟨piece, pieces, hpieces⟩ := List.exists_cons_of_ne_nil (splitMarked_ne_nil sep depth' ms)
      rw [hpieces] at hrest ⊢
      rw [← hrest]
      cases pieces with
      | nil => rfl
      | cons next pieces =>
        rw [prepend, join_cons _ _ (List.cons_ne_nil next pieces), join_cons _ _ (List.cons_ne_nil next pieces)]
        rfl

/-! ## Pieces -/

lemma mark_cons_of_plain (h : isPlain c = true) (rest : List Char) : mark (c :: rest) = (c, true) :: mark rest := by
  simp only [isPlain, Bool.and_eq_true, Bool.not_eq_true', bne_iff_ne, beq_iff_eq] at h
  obtain ⟨⟨hq, hs⟩, -⟩ := h
  rw [mark, Region.mark, Region.step]
  simp [hq, hs, mark]

lemma depthStep_of_plain (h : isPlain c = true) : depthStep c = 0 := by
  simp only [isPlain, Bool.and_eq_true, beq_iff_eq] at h
  exact h.2

lemma keepsSlash_of_closes (h : closesBracket c = true) (rest : List Char) : KeepsSlash (c :: rest) := by
  have hc : c ≠ '/' ∧ c ≠ '*' := ⟨by rintro rfl; exact absurd h (by decide), by rintro rfl; exact absurd h (by decide)⟩
  simpa [KeepsSlash] using hc

lemma not_mark_of_bracket (h : opensBracket c = true ∨ closesBracket c = true) : isQuote c = false ∧ c ≠ '/' := by
  simp only [opensBracket, closesBracket, Bool.or_eq_true, beq_iff_eq] at h
  rcases h with ((rfl | rfl) | rfl) | ((rfl | rfl) | rfl) <;> decide

lemma mark_cons_of_bracket (h : opensBracket c = true ∨ closesBracket c = true) (rest : List Char) :
    mark (c :: rest) = (c, true) :: mark rest := by
  obtain ⟨hquote, hslash⟩ := not_mark_of_bracket h
  rw [mark, Region.mark, Region.step]
  simp [hquote, hslash, mark]

lemma Piece.segment (h : Piece free t) : Segment free t := ⟨fun rest _ => h.closed rest, h.level⟩

lemma Piece.mono (h : Piece free t) (hf : ∀ c, free c → free' c) : Piece free' t := ⟨h.closed, h.level.mono hf⟩

lemma piece_nil : Piece free [] := ⟨fun _ => rfl, .nil⟩

lemma Piece.append (ht : Piece free t) (hu : Piece free u) : Piece free (t ++ u) where
  closed rest := by rw [List.append_assoc, ht.closed, hu.closed, ht.closed, List.append_assoc]
  level := by
    rw [ht.closed]
    exact ht.level.append hu.level

lemma piece_of_plain (h : ∀ c ∈ t, isPlain c = true ∧ free c) : Piece free t := by
  induction t with
  | nil => exact piece_nil
  | cons c t ih =>
    obtain ⟨hc, hf⟩ := h c (.head _)
    have hone : Piece free [c] := by
      refine ⟨fun rest => ?_, ?_⟩
      · rw [List.singleton_append, mark_cons_of_plain hc, mark_cons_of_plain hc]
        rfl
      · rw [mark_cons_of_plain hc]
        exact .plain (depthStep_of_plain hc) hf .nil
    exact hone.append (ih fun c hc => h c (.tail _ hc))

/-- Brackets around nested text, whatever that holds: they close it, so that nothing behind them matters. -/
lemma piece_of_segment (ho : opensBracket o = true) (hc : closesBracket c = true) (h : Segment (fun _ => True) t) :
    Piece free (o :: (t ++ [c])) := by
  have hmark (rest : List Char) : mark (o :: (t ++ c :: rest)) = (o, true) :: (mark t ++ (c, true) :: mark rest) := by
    rw [mark_cons_of_bracket (.inl ho), h.closed _ (keepsSlash_of_closes hc rest), mark_cons_of_bracket (.inr hc)]
  refine ⟨fun rest => ?_, ?_⟩
  · have happ : (o :: (t ++ [c])) ++ rest = o :: (t ++ c :: rest) := by simp
    rw [happ, hmark, hmark]
    simp [mark, Region.mark]
  · rw [hmark]
    exact .group ho hc h.level .nil

lemma piece_group (ho : opensBracket o = true) (hc : closesBracket c = true) (h : Piece (fun _ => True) t) :
    Piece free (o :: (t ++ [c])) :=
  piece_of_segment ho hc h.segment

lemma mark_literalBody {quote : Char} (hq : isQuote quote = true) {body : List Char} (h : LiteralBody quote body)
    (rest : List Char) :
    (Region.quoted quote).mark (body ++ quote :: rest) =
      (body ++ [quote]).map (fun c => (c, false)) ++ mark rest := by
  induction h with
  | nil =>
    have hb : quote ≠ '\\' := by rintro rfl; exact absurd hq (by decide)
    rw [List.nil_append, Region.mark, Region.step, if_neg hb, if_pos rfl]
    rfl
  | plain hne hb _ ih =>
    rw [List.cons_append, Region.mark, Region.step, if_neg hb, if_neg hne]
    exact congrArg _ ih
  | escape _ ih =>
    rw [List.cons_append, List.cons_append, Region.mark, Region.step, if_pos rfl]
    exact congrArg _ (congrArg _ ih)

lemma mark_literal (h : IsLiteral t) (rest : List Char) :
    mark (t ++ rest) = t.map (fun c => (c, false)) ++ mark rest := by
  obtain ⟨quote, body, hq, hbody, rfl⟩ := h
  have happ : (quote :: (body ++ [quote])) ++ rest = quote :: (body ++ quote :: rest) := by simp
  rw [happ, mark, Region.mark, Region.step, if_pos hq]
  exact congrArg _ (mark_literalBody hq hbody rest)

/-- A closed string literal, whatever it holds. -/
lemma piece_literal (h : IsLiteral t) : Piece free t := by
  have hmark : mark t = t.map fun c => (c, false) := by
    have hnil := mark_literal h []
    rwa [List.append_nil, show mark [] = [] from rfl, List.append_nil] at hnil
  refine ⟨fun rest => by rw [mark_literal h, hmark], ?_⟩
  rw [hmark]
  exact level_of_skipped t

/-! ## Brackets, lists and colons found again -/

/-- The bracket that closes a group is found behind its body. -/
lemma closingIndex?_segment {s : List Char} {start : Nat} (ho : opensBracket o = true) (hc : closesBracket c = true)
    (h : Segment free t) (hs : s.drop start = o :: (t ++ c :: rest)) :
    closingIndex? s start = some (start + (t.length + 1)) := by
  have hmark : mark (o :: (t ++ c :: rest)) = (o, true) :: (mark t ++ (c, true) :: mark rest) := by
    rw [mark_cons_of_bracket (.inl ho), h.closed _ (keepsSlash_of_closes hc rest), mark_cons_of_bracket (.inr hc)]
  have hlen : (mark t).length = t.length := by rw [← List.length_map Prod.fst, map_fst_mark]
  have hoffset : closingOffset? 0 (mark (o :: (t ++ c :: rest))) = some (t.length + 1) := by
    rw [hmark, closingOffset?, ho]
    simp only [Bool.and_self, if_true, closingOffset?_append h.level]
    rw [closingOffset?, not_opens_of_closes hc, hc]
    simp [hlen]
  rw [closingIndex?, hs]
  simp only [ho, if_true, hoffset, Option.map_some]

lemma bracketBody?_segment {s : List Char} {start : Nat} (ho : opensBracket o = true) (hc : closesBracket c = true)
    (h : Segment free t) (hs : s.drop start = o :: (t ++ c :: rest)) : bracketBody? s start = some t := by
  have hdrop : s.drop (start + 1) = t ++ c :: rest := by
    rw [← List.drop_drop, hs]
    rfl
  have hstop : start + (t.length + 1) - (start + 1) = t.length := by omega
  rw [bracketBody?, closingIndex?_segment ho hc h hs, Option.map_some, hdrop, hstop, List.take_left]

lemma bracketBody?_group {s : List Char} {start : Nat} (ho : opensBracket o = true) (hc : closesBracket c = true)
    (h : Piece free t) (hs : s.drop start = o :: (t ++ c :: rest)) : bracketBody? s start = some t :=
  bracketBody?_segment ho hc h.segment hs

/-- The pieces of a list are found again, but for the blank ones. -/
lemma splitTopLevel_segments (hsep : isPlain sep = true) (hstar : sep ≠ '*') {pieces : List (List Char)}
    (hne : pieces ≠ []) (h : ∀ t ∈ pieces, Segment (· ≠ sep) t) :
    splitTopLevel sep (join [sep] pieces) = pieces.filter fun piece => !isBlankText piece := by
  rw [splitTopLevel]
  congr 1
  have hstep := depthStep_of_plain hsep
  have hkeeps (rest : List Char) : KeepsSlash (sep :: rest) := by
    simp only [isPlain, Bool.and_eq_true, bne_iff_ne] at hsep
    simpa [KeepsSlash] using ⟨hsep.1.2, hstar⟩
  have hwhole (t : List Char) (ht : Segment (· ≠ sep) t) (ms : List (Char × Bool)) :
      splitMarked sep 0 (mark t ++ ms) = prepend t (splitMarked sep 0 ms) := by
    rw [splitMarked_append hstep ht.level, map_fst_mark]
  induction pieces with
  | nil => exact absurd rfl hne
  | cons t pieces ih =>
    cases pieces with
    | nil =>
      have ht := hwhole t (h t (.head _)) []
      rw [List.append_nil] at ht
      rw [join, ht]
      simp [splitMarked, prepend]
    | cons u pieces =>
      have hrest := ih (by simp) fun t ht => h t (.tail _ ht)
      rw [join_cons _ _ (List.cons_ne_nil u pieces), List.singleton_append, (h t (.head _)).closed _ (hkeeps _),
        mark_cons_of_plain hsep, hwhole t (h t (.head _)), splitMarked_cons, hstep]
      simp [hrest, prepend]

lemma splitTopLevel_join (hsep : isPlain sep = true) (hstar : sep ≠ '*') {pieces : List (List Char)}
    (hne : pieces ≠ []) (h : ∀ t ∈ pieces, Piece (· ≠ sep) t) :
    splitTopLevel sep (join [sep] pieces) = pieces.filter fun piece => !isBlankText piece :=
  splitTopLevel_segments hsep hstar hne fun t ht => (h t ht).segment

/-- The colon that ends a key is the first one outside all brackets. -/
lemma colonOffset?_key (h : Piece (· ≠ ':') t) (rest : List Char) :
    colonOffset? 0 (mark (t ++ ':' :: rest)) = some t.length := by
  have hlen : (mark t).length = t.length := by rw [← List.length_map Prod.fst, map_fst_mark]
  rw [h.closed, mark_cons_of_plain (by decide),
    colonOffset?_append h.level, colonOffset?]
  simp [hlen, depthStep, opensBracket, closesBracket]

end UiCatalog.Code
