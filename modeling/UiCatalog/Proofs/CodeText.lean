import UiCatalog.Proofs.Comments

/-!
# Well-formed code

Code as a grammar: characters, closed string literals, closed comments and groups in brackets. The scanner passes such
code by as nested text (`WellFormed.segment`), whatever follows it that leaves its last slash alone.
-/
namespace UiCatalog.Code

open Text

/-- Code in which literals, comments and brackets are closed. What stands outside all of them is `free`. -/
inductive WellFormed : (Char → Prop) → List Char → Prop
  | nil {free} : WellFormed free []
  | plain {free c rest} : isQuote c = false → depthStep c = 0 → free c → (c = '/' → KeepsSlash rest) →
      WellFormed free rest → WellFormed free (c :: rest)
  | literal {free t rest} : IsLiteral t → WellFormed free rest → WellFormed free (t ++ rest)
  | comment {free r rest} : IsComment r → WellFormed free rest → WellFormed free (r ++ rest)
  | group {free o c body rest} : opensBracket o = true → closesBracket c = true →
      WellFormed (fun _ => True) body → WellFormed free rest → WellFormed free (o :: (body ++ c :: rest))

variable {free : Char → Prop} {c o : Char} {t u body rest : List Char}

lemma KeepsSlash.append (ht : KeepsSlash t) (hu : KeepsSlash u) : KeepsSlash (t ++ u) := by
  cases t with
  | nil => exact hu
  | cons c t => exact ht

/-- A character that opens no literal is code, and so is a slash that opens no comment. -/
lemma mark_cons_of_code (hq : isQuote c = false) (hs : c = '/' → KeepsSlash rest) :
    mark (c :: rest) = (c, true) :: mark rest := by
  have hline : ¬ (c = '/' ∧ rest.head? = some '/') := fun h => (hs h.1 '/' h.2).1 rfl
  have hblock : ¬ (c = '/' ∧ rest.head? = some '*') := fun h => (hs h.1 '*' h.2).2 rfl
  rw [mark, Region.mark, Region.step]
  simp [hq, hline, hblock, mark]

lemma segment_cons (hq : isQuote c = false) (hd : depthStep c = 0) (hfree : free c) (hs : c = '/' → KeepsSlash rest)
    (h : Segment free rest) : Segment free (c :: rest) where
  closed more hmore := by
    rw [List.cons_append, mark_cons_of_code hq fun hc => (hs hc).append hmore, mark_cons_of_code hq hs,
      h.closed more hmore, List.cons_append]
  level := by
    rw [mark_cons_of_code hq hs]
    exact .plain hd hfree h.level

lemma Piece.append_segment (ht : Piece free t) (hu : Segment free u) : Segment free (t ++ u) where
  closed more hmore := by
    rw [List.append_assoc, ht.closed, hu.closed more hmore, ht.closed, List.append_assoc]
  level := by
    rw [ht.closed]
    exact ht.level.append hu.level

theorem WellFormed.segment (h : WellFormed free t) (hfeed : free '\n') : Segment free t := by
  induction h with
  | nil => exact piece_nil.segment
  | plain hq hd hfree hs _ ih => exact segment_cons hq hd hfree hs (ih hfeed)
  | literal ht _ ih => exact (piece_literal ht).append_segment (ih hfeed)
  | comment hr _ ih =>
    obtain ⟨hclosed, hinert⟩ := mark_comment hr
    have hpiece : Piece _ _ := ⟨hclosed, level_of_inert hinert hfeed⟩
    exact hpiece.append_segment (ih hfeed)
  | @group free o c body rest ho hc _ _ ihb ih =>
    have hgroup : Piece free (o :: (body ++ [c])) := piece_of_segment ho hc (ihb trivial)
    rw [List.append_cons body c rest, ← List.cons_append]
    exact hgroup.append_segment (ih hfeed)

end UiCatalog.Code
