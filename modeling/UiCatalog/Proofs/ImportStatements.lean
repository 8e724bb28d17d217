import UiCatalog.Proofs.ElementAttributes
import UiCatalog.Proofs.MarkupText

/-!
# Import statements

A page starts with import statements, each on a line of its own. The pattern for imports passes over as little as it can
up to a `from` clause, but it goes over the ends of lines: a statement that has neither such a clause nor a semicolon is
taken for the start of the next one. So the import example is the first import of the component package as it was
written just when no such statement stands directly before it.
-/
namespace UiCatalog.Demo

open Text Pattern Code

/-! ## Statements as they are written -/

/-- Blanks that indent a line. -/
def IsIndent (w : List Char) : Prop := ∀ c ∈ w, c = ' ' ∨ c = '\t'

def IsStringQuote (c : Char) : Prop := c = '\'' ∨ c = '"'

instance : DecidablePred IsStringQuote := fun c => inferInstanceAs (Decidable (c = '\'' ∨ c = '"'))

/-- The text starts with a `from` clause, up to the opening quote of the module. -/
def FromStart (t : List Char) : Prop :=
  ∃ u v quote rest, IsGap u ∧ IsGap v ∧ IsStringQuote quote ∧ t = u ++ ("from".toList ++ (v ++ quote :: rest))

/-- No `from` clause starts within `t`, when `rest` follows it. -/
def NoFrom (t rest : List Char) : Prop := ∀ a b, t = a ++ b → b ≠ [] → ¬ FromStart (b ++ rest)

/-- Nothing in the text reads as a `from` clause, also when a blank stands before it. -/
def FromFree (t : List Char) : Prop := NoFrom (' ' :: t) []

/-- A `from` clause as it is written. -/
def fromText (u v : List Char) (quote : Char) (m e : List Char) : List Char :=
  u ++ ("from".toList ++ (v ++ quote :: (m ++ quote :: e)))

/-- An import statement: whether it has a `from` clause, its module, and how it is written. -/
structure Statement where
  named : Bool
  module : List Char
  text : List Char

/-- What an import names, between the keyword and the `from` clause. -/
structure IsClause (k : List Char) : Prop where
  nonempty : k ≠ []
  trimmed : trim k = k
  undivided : ';' ∉ k
  fromFree : FromFree k

/-- Imports with a `from` clause, and those for their side effects, with or without a semicolon. -/
inductive IsStatement : Statement → Prop
  | named {g k u v quote m e} : IsGap g → IsClause k → IsGap u → IsGap v → IsStringQuote quote → m ≠ [] →
      (∀ c ∈ m, ¬ IsStringQuote c) → e = [] ∨ e = [';'] →
      IsStatement ⟨true, m, "import".toList ++ (g ++ (k ++ fromText u v quote m e))⟩
  | bare {g quote m e} : IsGap g → IsStringQuote quote → '\n' ∉ m → FromFree (quote :: (m ++ [quote])) →
      e = [] ∨ e = [';'] → IsStatement ⟨false, m, "import".toList ++ (g ++ quote :: (m ++ quote :: e))⟩

/-- Statements, each starting on a line of its own, with blank lines anywhere and text without imports behind them. -/
inductive StatementsText : List Statement → List Char → Prop
  | nil {t} : FromFree t → StatementsText [] t
  | blank {z ss t} : IsSpace z → StatementsText ss t → StatementsText ss (z ++ '\n' :: t)
  | last {w s z} : IsIndent w → IsStatement s → IsSpace z → StatementsText [s] (w ++ (s.text ++ z))
  | cons {w s z ss t} : IsIndent w → IsStatement s → IsSpace z → StatementsText ss t →
      StatementsText (s :: ss) (w ++ (s.text ++ (z ++ '\n' :: t)))

/-- An import for its side effects that no semicolon ends. -/
def Statement.IsOpen (s : Statement) : Prop := s.named = false ∧ ';' ∉ s.text

instance : DecidablePred Statement.IsOpen := fun s => inferInstanceAs (Decidable (s.named = false ∧ ';' ∉ s.text))

/-- The name of a directory that the pattern for relative paths goes through. -/
def IsPlainName (name : List Char) : Prop :=
  name ≠ [] ∧ ∀ c ∈ name, isWord c = true ∨ c = '.' ∨ c = '@' ∨ c = '-'

/-- A relative path with a segment `components`, behind plain names. -/
def IsComponentsPath (m : List Char) : Prop :=
  ∃ first names rest, (first = ".".toList ∨ first = "..".toList) ∧ (∀ name ∈ names, IsPlainName name) ∧
    m = join ['/'] (first :: (names ++ "components".toList :: rest))

/-- The statement names what it imports from the package, a part of it, or a relative components path. -/
def Statement.Counts (package : String) (s : Statement) : Prop :=
  s.named = true ∧ (s.module = package.toList ∨ (∃ rest, s.module = package.toList ++ '/' :: rest) ∨
    IsComponentsPath s.module)

variable {a b k m t u v w x z g e rest lead name source : List Char} {quote ch : Char} {package : String}
  {before : Option Char} {offset : ℕ} {found : Match} {s : Statement} {ss after : List Statement} {o : Bool}

/-! ## From clauses -/

lemma not_blank_of_isStringQuote (h : IsStringQuote ch) : isBlank ch = false := by
  rcases h with rfl | rfl <;> decide

lemma not_quote_of_mem_from (hu : IsGap u) (hv : IsGap v) (h : ch ∈ u ++ ("from".toList ++ v)) :
    ¬ IsStringQuote ch := by
  intro hquote
  have hblank := not_blank_of_isStringQuote hquote
  rcases List.mem_append.1 h with h | h
  · exact not_mem_of_isSpace hu.1 hblank h
  · rcases List.mem_append.1 h with h | h
    · rcases hquote with rfl | rfl <;> exact absurd h (by decide)
    · exact not_mem_of_isSpace hv.1 hblank h

lemma not_fromStart_cons (hc : isBlank ch = false) (t : List Char) : ¬ FromStart (ch :: t) := by
  rintro ⟨u, v, quote, rest, ⟨hu, hne⟩, -, -, ht⟩
  obtain ⟨d, u, rfl⟩ := List.exists_cons_of_ne_nil hne
  obtain rfl := (List.cons.inj ht).1
  rw [hu ch (.head _)] at hc
  cases hc

lemma mem_of_fromStart (h : FromStart t) : 'f' ∈ t := by
  obtain ⟨u, v, quote, rest, -, -, -, rfl⟩ := h
  simp

/-- Of the white space before a `from` clause one blank is enough. -/
lemma fromStart_of_space (hw : IsSpace w) (h : FromStart (w ++ t)) : FromStart (' ' :: t) := by
  obtain ⟨u, v, quote, rest, hu, hv, hquote, ht⟩ := h
  obtain ⟨z, rfl⟩ := exists_append_of_not_mem (d := 'f') ht.symm (not_mem_of_isSpace hw (by decide))
  rw [List.append_assoc, List.append_cancel_left_eq] at ht
  refine ⟨' ' :: z, v, quote, rest, ⟨?_, List.cons_ne_nil _ _⟩, hv, hquote, by rw [ht]; rfl⟩
  exact List.forall_mem_cons.2 ⟨by decide, fun c hc => hu.1 c (List.mem_append_right w hc)⟩

lemma not_fromStart_space_cons (hc : isBlank ch = false) (hf : ch ≠ 'f') (t : List Char) :
    ¬ FromStart (' ' :: ch :: t) := by
  rintro ⟨u, v, quote, rest, ⟨hu, hne⟩, -, -, ht⟩
  obtain ⟨d, u, rfl⟩ := List.exists_cons_of_ne_nil hne
  have ht := (List.cons.inj ht).2
  cases u with
  | nil => exact hf (List.cons.inj ht).1
  | cons d u =>
    obtain rfl := (List.cons.inj ht).1
    rw [hu ch (by simp)] at hc
    cases hc

/-- What stands before the first quote. -/
lemma eq_of_append_quote {c d : Char} (ha : ∀ c ∈ a, ¬ IsStringQuote c) (hb : ∀ c ∈ b, ¬ IsStringQuote c)
    (hc : IsStringQuote c) (hd : IsStringQuote d) (h : a ++ c :: u = b ++ d :: v) : a = b := by
  have htake {a u : List Char} {c : Char} (ha : ∀ d ∈ a, ¬ IsStringQuote d) (hc : IsStringQuote c) :
      (a ++ c :: u).takeWhile (fun d => ¬ IsStringQuote d) = a := by
    rw [List.takeWhile_append_of_pos (by simpa using ha), List.takeWhile_cons_of_neg (by simpa using hc),
      List.append_nil]
  rw [← htake ha hc, h, htake hb hd]

/-- A `from` clause that starts before a quote ends with it or before. -/
lemma fromStart_of_append (hc : ch ∈ t) (hquote : IsStringQuote ch) (h : FromStart (t ++ rest)) : FromStart t := by
  obtain ⟨u, v, quote, tail, hu, hv, hmark, ht⟩ := h
  have hsplit : t ++ rest = u ++ ("from".toList ++ v) ++ quote :: tail := by simp [ht]
  rcases List.append_eq_append_iff.1 hsplit with ⟨x, hx, -⟩ | ⟨x, rfl, hx⟩
  · exact absurd hquote (not_quote_of_mem_from hu hv (hx ▸ List.mem_append_left x hc))
  · cases x with
    | nil =>
      rw [List.append_nil] at hc
      exact absurd hquote (not_quote_of_mem_from hu hv hc)
    | cons d x =>
      obtain rfl := (List.cons.inj hx).1
      exact ⟨u, v, quote, x, hu, hv, hmark, by simp⟩

lemma NoFrom.append (ht : NoFrom t (u ++ rest)) (hu : NoFrom u rest) : NoFrom (t ++ u) rest := by
  intro a b hab hb
  rcases List.append_eq_append_iff.1 hab with ⟨x, rfl, rfl⟩ | ⟨x, rfl, rfl⟩
  · exact hu x b rfl hb
  · by_cases hx : x = []
    · subst hx
      exact hu [] u rfl (by simpa using hb)
    · rw [List.append_assoc]
      exact ht a x rfl hx

lemma NoFrom.left (h : NoFrom (t ++ u) rest) : NoFrom t (u ++ rest) := by
  rintro a b rfl hb
  rw [← List.append_assoc]
  exact h a (b ++ u) (List.append_assoc a b u) (by simp [hb])

lemma NoFrom.right (h : NoFrom (t ++ u) rest) : NoFrom u rest := by
  rintro a b rfl hb
  exact h (t ++ a) b (List.append_assoc t a b).symm hb

lemma noFrom_space (hw : IsSpace w) (hrest : ¬ FromStart (' ' :: rest)) : NoFrom w rest := by
  rintro a b rfl - hfrom
  exact hrest (fromStart_of_space (fun c hc => hw c (List.mem_append_right a hc)) hfrom)

lemma noFrom_nil : NoFrom [] rest := fun _ _ hab hb => absurd (List.append_eq_nil_iff.1 hab.symm).2 hb

lemma FromFree.noFrom (h : FromFree t) : NoFrom t [] := NoFrom.right (t := [' ']) h

lemma FromFree.not_fromStart (h : FromFree t) : ¬ FromStart (' ' :: t) := by
  have hstart := h [] (' ' :: t) rfl (List.cons_ne_nil _ _)
  rwa [List.append_nil] at hstart

/-- The keyword and the blanks around it are no part of a `from` clause. -/
lemma noFrom_keyword (hw : IsSpace w) (hg : IsGap g) (hrest : ¬ FromStart (' ' :: rest)) :
    NoFrom (w ++ ("import".toList ++ g)) rest := by
  have hletters : ∀ c ∈ "import".toList, isBlank c = false := by decide
  have hkeyword : NoFrom "import".toList (g ++ rest) := by
    intro a b hab hb
    obtain ⟨c, b, rfl⟩ := List.exists_cons_of_ne_nil hb
    exact not_fromStart_cons (hletters c (hab ▸ by simp)) (b ++ (g ++ rest))
  have hindent : NoFrom w (("import".toList ++ g) ++ rest) :=
    noFrom_space hw (not_fromStart_space_cons (by decide) (by decide) _)
  exact hindent.append (hkeyword.append (noFrom_space hg.1 hrest))

/-- In the blanks before it and in what an import names no `from` clause starts but its own. -/
lemma IsClause.noFrom (h : IsClause k) (hu : IsGap u) (hv : IsGap v) (hquote : IsStringQuote quote)
    (rest : List Char) : NoFrom (' ' :: k) (u ++ ("from".toList ++ (v ++ quote :: rest))) := by
  intro a b hab hb hfrom
  by_cases hmark : ∃ ch ∈ b, IsStringQuote ch
  · obtain ⟨ch, hch, hquote⟩ := hmark
    exact h.fromFree a b hab hb (by simpa using fromStart_of_append hch hquote hfrom)
  · -- both clauses go up to the same quote, and they have the same characters but for blanks
    obtain ⟨u', v', quote', tail, hu', hv', hquote', ht⟩ := hfrom
    have hlead : b ++ (u ++ ("from".toList ++ v)) = u' ++ ("from".toList ++ v') := by
      have hsplit : b ++ (u ++ ("from".toList ++ v)) ++ quote :: rest =
          u' ++ ("from".toList ++ v') ++ quote' :: tail := by simpa using ht
      have hnot : ∀ ch ∈ b ++ (u ++ ("from".toList ++ v)), ¬ IsStringQuote ch := by
        intro ch hch hq
        rcases List.mem_append.1 hch with hch | hch
        · exact hmark ⟨ch, hch, hq⟩
        · exact not_quote_of_mem_from hu hv hch hq
      have hnot' : ∀ ch ∈ u' ++ ("from".toList ++ v'), ¬ IsStringQuote ch := fun ch => not_quote_of_mem_from hu' hv'
      exact eq_of_append_quote hnot hnot' hquote hquote' hsplit
    have hink : ink b = 0 := by
      have hsame := congrArg ink hlead
      simp only [ink_append, ink_of_isSpace hu.1, ink_of_isSpace hv.1, ink_of_isSpace hu'.1,
        ink_of_isSpace hv'.1] at hsame
      omega
    obtain ⟨k', last, rfl, hlast⟩ := exists_last_of_trim h.trimmed h.nonempty
    have hmem : last ∈ b := by
      have hend : (a ++ b).getLast? = some last := by rw [← hab, ← List.cons_append, List.getLast?_concat]
      rw [List.getLast?_append_of_ne_nil a hb] at hend
      exact List.mem_of_getLast? hend
    have hpos : 0 < ink b := List.countP_pos_iff.2 ⟨last, hmem, by simp [hlast]⟩
    omega

lemma noFrom_quoted (hquote : IsStringQuote quote) (hm : FromFree (quote :: (m ++ [quote]))) (he : e = [] ∨ e = [';'])
    (rest : List Char) : NoFrom (' ' :: quote :: (m ++ quote :: e)) rest := by
  have hend : NoFrom e rest := by
    rcases he with rfl | rfl
    · exact noFrom_nil
    · rintro a b hab hb
      obtain ⟨rfl, rfl⟩ : a = [] ∧ b = [';'] := by
        rcases List.cons_eq_append_iff.1 hab with ⟨rfl, rfl⟩ | ⟨a, rfl, hnil⟩
        · exact ⟨rfl, rfl⟩
        · exact absurd (List.append_eq_nil_iff.1 hnil.symm).2 hb
      exact not_fromStart_cons (by decide) rest
  have hfront : NoFrom (' ' :: quote :: (m ++ [quote])) (e ++ rest) := by
    intro a b hab hb hfrom
    have hlast : (a ++ b).getLast? = some quote := by
      rw [← hab, ← List.cons_append, ← List.cons_append, List.getLast?_concat]
    rw [List.getLast?_append_of_ne_nil a hb] at hlast
    exact hm a b hab hb (by simpa using fromStart_of_append (List.mem_of_getLast? hlast) hquote hfrom)
  have hsplit : ' ' :: quote :: (m ++ quote :: e) = ' ' :: quote :: (m ++ [quote]) ++ e := by simp
  rw [hsplit]
  exact hfront.append hend

/-! ## Where an import is found -/

/-- The text opens an import: the keyword in a line of its own, and what is passed over behind it. -/
structure Opening (t rest : List Char) : Prop where
  opens : ∃ w g c k, IsIndent w ∧ IsGap g ∧ isBlank c = false ∧ t = w ++ ("import".toList ++ (g ++ c :: k))
  undivided : ';' ∉ t
  noFrom : NoFrom t rest

/-- What is pending at the start of a line: nothing, or the opening of an import that is open. -/
inductive Lead : Bool → List Char → Prop
  | none : Lead false []
  | run {t z : List Char} : (∀ rest, Opening t rest) → IsSpace z → Lead true (t ++ z)

lemma isSpace_of_isIndent (hw : IsIndent w) : IsSpace w := by
  intro c hc
  rcases hw c hc with rfl | rfl <;> decide

lemma not_mem_of_isIndent (hw : IsIndent w) (hspace : ch ≠ ' ') (htab : ch ≠ '\t') : ch ∉ w := fun hmem =>
  (hw ch hmem).elim hspace htab

lemma Lead.undivided (h : Lead o lead) : ';' ∉ lead := by
  cases h with
  | none => exact List.not_mem_nil
  | run hrun hz => simp [(hrun []).undivided, not_mem_of_isSpace hz (c := ';') (by decide)]

lemma Lead.noFrom (h : Lead o lead) (hrest : ¬ FromStart (' ' :: rest)) : NoFrom lead rest := by
  cases h with
  | none => exact noFrom_nil
  | run hrun hz => exact (hrun _).noFrom.append (noFrom_space hz hrest)

/-- No `from` clause starts in what is pending and in the statement behind it up to `rest`. -/
lemma Lead.noFrom_statement (h : Lead o lead) (hw : IsIndent w) (hg : IsGap g) (hfrom : NoFrom (' ' :: k) rest) :
    NoFrom (lead ++ (w ++ ("import".toList ++ (g ++ k)))) rest := by
  have hspace := isSpace_of_isIndent hw
  have hkeyword : NoFrom (w ++ ("import".toList ++ g)) (k ++ rest) :=
    noFrom_keyword hspace hg (hfrom [] _ rfl (List.cons_ne_nil _ _))
  have hstatement := hkeyword.append (NoFrom.right (t := [' ']) hfrom)
  simp only [List.append_assoc] at hstatement
  refine NoFrom.append (h.noFrom fun hstart => ?_) hstatement
  -- behind its indent a statement starts with its keyword
  have hblank : FromStart ((' ' :: w) ++ ("import".toList ++ (g ++ (k ++ rest)))) := by simpa using hstart
  have hindent : IsSpace (' ' :: w) := List.forall_mem_cons.2 ⟨by decide, hspace⟩
  exact not_fromStart_space_cons (by decide) (by decide) _ (fromStart_of_space hindent hblank)

/-- A statement opens an import, alone or behind what is pending. -/
lemma Lead.opening (h : Lead o lead) (hw : IsIndent w) (hg : IsGap g) (hc : isBlank ch = false) (hk : ';' ∉ ch :: k)
    (hfrom : NoFrom (' ' :: ch :: k) rest) : Opening (lead ++ (w ++ ("import".toList ++ (g ++ ch :: k)))) rest where
  opens := by
    cases h with
    | none => exact ⟨w, g, ch, k, hw, hg, hc, rfl⟩
    | @run t z hrun hz =>
      obtain ⟨w', g', c', k', hw', hg', hc', rfl⟩ := (hrun []).opens
      exact ⟨w', g', c', k' ++ (z ++ (w ++ ("import".toList ++ (g ++ ch :: k)))), hw', hg', hc', by simp⟩
  undivided := by
    have hkeyword : ';' ∉ "import".toList := by decide
    have hindent : ';' ∉ w := not_mem_of_isIndent hw (by decide) (by decide)
    simp only [List.mem_append, not_or]
    exact ⟨h.undivided, hindent, hkeyword, not_mem_of_isSpace hg.1 (by decide), hk⟩
  noFrom := h.noFrom_statement hw hg hfrom

/-- The pattern for the text from a `from` clause on. -/
def fromClause : Pattern :=
  gap ++ (text "from" ++ (gap ++ (one (fun c => c == '\'' || c == '"') ++
    (group 1 (many1 (noneOf "'\"")) ++ (one (fun c => c == '\'' || c == '"') ++ Pattern.optional (char ';'))))))

def importStatement : Pattern :=
  lineStart ++ (many (fun c => c == ' ' || c == '\t') ++ (text "import" ++ (gap ++ (few (· != ';') ++ fromClause))))

lemma matchAt?_importPattern : matchAt? importPattern = matchAt? importStatement := rfl

lemma isStringQuote_iff : (ch == '\'' || ch == '"') = true ↔ IsStringQuote ch := by
  rw [Bool.or_eq_true, beq_iff_eq, beq_iff_eq]
  rfl

lemma noneOf_quotes_iff : noneOf "'\"" ch = true ↔ ¬ IsStringQuote ch := by
  simp [noneOf_iff, IsStringQuote]

lemma fromStart_of_reaches {p q : Point} (h : Reaches fromClause p q) : FromStart p.rest := by
  obtain ⟨_, hgap, _, hword, _, hgap', _, ⟨quote, rest, htail, hquote, -⟩, -⟩ := h
  obtain ⟨u, tail, hu, hp, rfl⟩ := (reaches_iff_of_plain plain_gap).1 hgap
  obtain ⟨xs, tail', hxs, hp', rfl⟩ := (reaches_iff_of_plain (plain_text "from")).1 hword
  obtain ⟨v, tail'', hv, hp'', rfl⟩ := (reaches_iff_of_plain plain_gap).1 hgap'
  obtain rfl := spells_text.1 hxs
  rw [Point.rest_over] at hp' hp'' htail
  refine ⟨u, v, quote, rest, spells_gap_iff.1 hu, spells_gap_iff.1 hv, isStringQuote_iff.1 hquote, ?_⟩
  rw [hp, hp', hp'', htail]

lemma exists_from_of_matchAt? (h : matchAt? importPattern before offset t = some found) :
    ∃ a b, t = a ++ b ∧ ';' ∉ a ∧ FromStart b := by
  rw [matchAt?_importPattern] at h
  obtain ⟨q, hq, -⟩ := exists_reaches_of_matchAt? h
  obtain ⟨_, ⟨-, rfl⟩, _, ⟨w, tail, ht, hw, rfl⟩, _, hkeyword, _, hgap, _, ⟨k, tail₃, hk, hplain, rfl⟩, hfrom⟩ := hq
  obtain ⟨xs, tail₁, hxs, hword, rfl⟩ := (reaches_iff_of_plain (plain_text "import")).1 hkeyword
  obtain ⟨g, tail₂, hg, hblanks, rfl⟩ := (reaches_iff_of_plain plain_gap).1 hgap
  obtain rfl := spells_text.1 hxs
  refine ⟨w ++ ("import".toList ++ (g ++ k)), tail₃, ?_, ?_, fromStart_of_reaches hfrom⟩
  · rw [show t = w ++ tail from ht, show tail = _ from hword, show tail₁ = _ from hblanks, show tail₂ = _ from hk]
    simp
  · have hindent : ';' ∉ w := fun hmem => absurd (hw _ hmem) (by decide)
    have hkeyword : ';' ∉ "import".toList := by decide
    have hbefore : ';' ∉ k := fun hmem => absurd (hplain _ hmem) (by decide)
    simp only [List.mem_append, not_or]
    exact ⟨hindent, hkeyword, not_mem_of_isSpace (spells_gap_iff.1 hg).1 (by decide), hbefore⟩

/-- No import is found where no `from` clause starts, up to a semicolon or the end. -/
lemma quiet_of_noFrom (h : NoFrom t rest) (hrest : rest = [] ∨ ∃ r, rest = ';' :: r) : Quiet importPattern t rest := by
  rintro a b before offset rfl hb
  refine Option.eq_none_iff_forall_ne_some.2 fun found hfound => ?_
  obtain ⟨x, y, hxy, hplain, hfrom⟩ := exists_from_of_matchAt? hfound
  rcases List.append_eq_append_iff.1 hxy with ⟨z, rfl, hz⟩ | ⟨z, rfl, rfl⟩
  · rcases hrest with rfl | ⟨r, rfl⟩
    · obtain ⟨-, rfl⟩ := List.append_eq_nil_iff.1 hz.symm
      exact absurd (mem_of_fromStart hfrom) List.not_mem_nil
    · cases z with
      | nil =>
        obtain rfl : ';' :: r = y := hz
        exact not_fromStart_cons (by decide) r hfrom
      | cons d z =>
        obtain rfl := (List.cons.inj hz).1
        simp at hplain
  · by_cases hz : z = []
    · subst hz
      rcases hrest with rfl | ⟨r, rfl⟩
      · exact absurd (mem_of_fromStart hfrom) List.not_mem_nil
      · exact not_fromStart_cons (by decide) r hfrom
    · exact h (a ++ x) z (by simp) hz hfrom

lemma findAllFrom_of_noFrom (h : NoFrom t []) (before : Option Char) (offset : ℕ) :
    findAllFrom importPattern 0 before offset t = [] := by
  have hquiet := findAllFrom_of_quiet (quiet_of_noFrom h (.inl rfl)) before offset
  rw [List.append_nil] at hquiet
  rw [hquiet, findAllFrom, Option.toList_eq_nil_iff]
  refine Option.eq_none_iff_forall_ne_some.2 fun found hfound => ?_
  obtain ⟨a, b, hab, -, hfrom⟩ := exists_from_of_matchAt? hfound
  obtain ⟨-, rfl⟩ := List.append_eq_nil_iff.1 hab.symm
  exact absurd (mem_of_fromStart hfrom) List.not_mem_nil

/-- Blank lines hold no import, whatever follows them. -/
lemma quiet_newline (hz : IsSpace z) (rest : List Char) : Quiet importPattern (z ++ ['\n']) rest := by
  intro a b before offset hab hb
  refine Option.eq_none_iff_forall_ne_some.2 fun found hfound => ?_
  obtain ⟨-, w, c, tail, hw, -, ht⟩ := starts_of_importPattern hfound
  have hspace : IsSpace b := by
    intro c hc
    have hmem : c ∈ z ++ ['\n'] := hab ▸ List.mem_append_right a hc
    rcases List.mem_append.1 hmem with hmem | hmem
    · exact hz c hmem
    · rw [List.mem_singleton.1 hmem]
      decide
  obtain ⟨x, rfl⟩ := exists_append_of_not_mem (d := 'i') ht.symm (not_mem_of_isSpace hspace (by decide))
  have hline : '\n' ∈ b := by
    have hlast : (a ++ b).getLast? = some '\n' := by rw [← hab, List.getLast?_concat]
    rw [List.getLast?_append_of_ne_nil a hb] at hlast
    exact List.mem_of_getLast? hlast
  exact not_mem_of_isIndent hw (by decide) (by decide) (List.mem_append_left x hline)

/-- What stands in a line behind a semicolon holds no import. -/
lemma quietBehind_semicolon (ht : '\n' ∉ t) (before : Option Char) (rest : List Char) :
    QuietBehind importPattern before (';' :: t) rest := by
  intro a b offset hab hb
  refine Option.eq_none_iff_forall_ne_some.2 fun found hfound => ?_
  obtain ⟨hline, w, c, tail, hw, -, hstart⟩ := starts_of_importPattern hfound
  rcases List.cons_eq_append_iff.1 hab with ⟨rfl, rfl⟩ | ⟨a, rfl, rfl⟩
  · exact absurd (head_of_import hw hstart) (by decide)
  · have hlast := getLast?_of_lineStart (List.cons_ne_nil _ _) hline
    rcases List.mem_cons.1 (List.mem_of_getLast? hlast) with hmem | hmem
    · exact absurd hmem (by decide)
    · exact ht (List.mem_append_left b hmem)

lemma run_optional_char {β : Type} {goal : Point → β} {p : Point} (he : e = [] ∨ e = [ch])
    (hrest : rest.head? ≠ some ch) (hp : p.rest = e ++ rest) :
    run (Pattern.optional (char ch)) p (fun q => some (goal q)) = some (goal (p.over e rest)) := by
  rcases he with rfl | rfl
  · have hnone : run (char ch) p (fun q => some (goal q)) = none := by
      refine run_of_not_reaches ?_
      rintro q ⟨c, tail, htail, hc, -⟩
      rw [hp, List.nil_append] at htail
      rw [htail, List.head?_cons, eq_of_beq hc] at hrest
      exact hrest rfl
    rw [run_optional_none hnone, show rest = p.rest from hp.symm, Point.over_nil]
  · exact run_optional_some (run_char hp)

def AtLineStart (before : Option Char) : Prop := ∀ c ∈ before, c = '\n'

/-- No `from` clause is read before the opening has ended. -/
lemma Opening.run_fromClause_eq_none {β : Type} {a b : List Char} {p : Point} (h : Opening (a ++ b) rest) (hb : b ≠ [])
    (hp : p.rest = b ++ rest) (next : Point → Option β) : run fromClause p next = none := by
  refine run_of_not_reaches fun q hq => ?_
  have hfrom := fromStart_of_reaches hq
  rw [hp] at hfrom
  exact h.noFrom a b rfl hb hfrom

/-- An import is found from its opening up to the end of its module, or the semicolon behind that. -/
theorem matchAt?_of_opening (hu : IsGap u) (hv : IsGap v) (hquote : IsStringQuote quote) (hne : m ≠ [])
    (hm : ∀ c ∈ m, ¬ IsStringQuote c) (he : e = [] ∨ e = [';']) (hrest : rest.head? ≠ some ';')
    (h : Opening t (fromText u v quote m e ++ rest)) (hbefore : AtLineStart before) (offset : ℕ) :
    ∃ found, matchAt? importPattern before offset (t ++ fromText u v quote m e ++ rest) = some found ∧
      found.get 1 = m ∧ found.chars = t ++ fromText u v quote m e := by
  obtain ⟨w, g, c, k, hw, hg, hc, rfl⟩ := h.opens
  let front := w ++ ("import".toList ++ (g ++ c :: k))
  let inner := m ++ quote :: (e ++ rest)
  let place := offset + (front ++ (u ++ ("from".toList ++ (v ++ [quote])))).length
  let whole : Capture :=
    ⟨offset, offset + (front ++ fromText u v quote m e).length, front ++ fromText u v quote m e ++ rest⟩
  have hclause : fromText u v quote m e ++ rest = u ++ ("from".toList ++ (v ++ quote :: inner)) := by
    simp [fromText, inner]
  have hmark := isStringQuote_iff.2 hquote
  have hindent : ∀ c ∈ w, (c == ' ' || c == '\t') = true := fun c hc => by simpa using hw c hc
  have hplain : ∀ d ∈ c :: k, (d != ';') = true := by
    intro d hd
    rw [bne_iff_ne]
    rintro rfl
    exact h.undivided (by simp only [List.mem_append, hd, or_true])
  have hmodule : ∀ c ∈ m, noneOf "'\"" c = true := fun c hc => noneOf_quotes_iff.2 (hm c hc)
  have hend : noneOf "'\"" quote = false :=
    (Bool.not_eq_true _).mp fun hnot => noneOf_quotes_iff.1 hnot hquote
  have hsplit {a b : List Char} (hab : c :: k = a ++ b) :
      w ++ ("import".toList ++ (g ++ c :: k)) = w ++ ("import".toList ++ (g ++ a)) ++ b := by simp [hab]
  refine ⟨⟨whole, [(1, ⟨place, place + m.length, inner⟩)]⟩, ?_, get_one_of_length rfl _, chars_of_length rfl _⟩
  rw [matchAt?_importPattern, matchAt?]
  simp only [importStatement, run_append, List.append_assoc, hclause]
  refine (if_pos ?_).trans ?_
  · cases before with
    | none => rfl
    | some c => simp [hbefore c rfl]
  refine run_many w _ rfl hindent (fun d hd => Option.some.inj hd ▸ by decide) ?_
  refine (run_chars "import".toList _ rfl).trans ?_
  refine run_many1 g _ rfl hg.2 hg.1 (fun d hd => Option.some.inj hd ▸ hc) ?_
  refine run_few_iff.2 ⟨c :: k, _, rfl, hplain, fun a b hab hb => ?_, ?_⟩
  · exact Opening.run_fromClause_eq_none (hsplit hab ▸ h) hb (by rw [hclause]; rfl) _
  simp only [fromClause, run_append, run_group]
  refine run_many1 u _ rfl hu.2 hu.1 (fun d hd => Option.some.inj hd ▸ by decide) ?_
  refine (run_chars "from".toList _ rfl).trans ?_
  refine run_many1 v _ rfl hv.2 hv.1 (fun d hd => Option.some.inj hd ▸ not_blank_of_isStringQuote hquote) ?_
  refine (run_one rfl hmark).trans ?_
  refine run_many1 m (quote :: (e ++ rest)) rfl hne hmodule (fun d hd => Option.some.inj hd ▸ hend) ?_
  refine (run_one rfl hmark).trans ?_
  refine (run_optional_char he hrest rfl).trans ?_
  simp [Point.over, whole, place, front, inner, fromText]
  omega

/-! ## Statement after statement -/

/-- The statements with a `from` clause, each with whether an open import stands directly before it. -/
def namedBehind : Bool → List Statement → List (Bool × Statement)
  | _, [] => []
  | o, s :: ss => if s.named then (o, s) :: namedBehind s.IsOpen ss else namedBehind s.IsOpen ss

/-- A match reads as a statement, exactly as it is written or with an open import before it. -/
def Reads (found : Match) (x : Bool × Statement) : Prop :=
  found.get 1 = x.2.module ∧ ∃ z, trim found.chars = z ++ x.2.text ∧ (z = [] ↔ x.1 = false)

/-- From the start of a line on the statements are read, whatever is pending there. -/
def ReadFrom (ss : List Statement) (t : List Char) : Prop :=
  ∀ o lead before offset, Lead o lead → AtLineStart before →
    List.Forall₂ Reads (findAllFrom importPattern 0 before offset (lead ++ t)) (namedBehind o ss)

/-- Behind a statement the others are read, and nothing belongs to it any more. -/
structure ReadBehind (ss : List Statement) (t : List Char) : Prop where
  ended : ∀ before offset, List.Forall₂ Reads (findAllFrom importPattern 0 before offset t) (namedBehind false ss)
  running : ∀ run before offset, (∀ rest, Opening run rest) → AtLineStart before →
    List.Forall₂ Reads (findAllFrom importPattern 0 before offset (run ++ t)) (namedBehind true ss)
  next : t.head? ≠ some ';'

lemma atLineStart_newline (before : Option Char) : AtLineStart ((z ++ ['\n']).getLast?.or before) := by
  rw [List.getLast?_concat]
  rintro c ⟨⟩
  rfl

lemma head?_ne_of_isSpace (hz : IsSpace z) (hc : isBlank ch = false) : z.head? ≠ some ch := fun hhead =>
  not_mem_of_isSpace hz hc (List.mem_of_head? hhead)

lemma readBehind_newline (hz : IsSpace z) (h : ReadFrom ss t) : ReadBehind ss (z ++ '\n' :: t) := by
  have hline : IsSpace (z ++ ['\n']) := isSpace_append hz (by decide)
  have hsplit : z ++ '\n' :: t = z ++ ['\n'] ++ t := by simp
  rw [hsplit]
  refine ⟨fun before offset => ?_, fun run before offset hrun hbefore => ?_, ?_⟩
  · rw [findAllFrom_of_quiet (quiet_newline hz t)]
    exact h false [] _ _ .none (atLineStart_newline before)
  · rw [← List.append_assoc]
    exact h true _ before offset (.run hrun hline) hbefore
  · rw [List.head?_append_of_ne_nil _ (by simp)]
    exact head?_ne_of_isSpace hline (by decide)

lemma readBehind_space (hz : IsSpace z) : ReadBehind [] z := by
  have hnone : NoFrom z [] := noFrom_space hz fun hfrom => absurd (mem_of_fromStart hfrom) (by decide)
  refine ⟨fun before offset => ?_, fun run before offset hrun _ => ?_, head?_ne_of_isSpace hz (by decide)⟩
  · rw [findAllFrom_of_noFrom hnone]
    exact .nil
  · rw [findAllFrom_of_noFrom ((hrun _).noFrom.append hnone)]
    exact .nil

lemma readFrom_rest (h : FromFree t) : ReadFrom [] t := by
  intro o lead before offset hlead _
  have hlead : NoFrom lead (t ++ []) := hlead.noFrom (by simpa using h.not_fromStart)
  rw [findAllFrom_of_noFrom (hlead.append h.noFrom)]
  cases o <;> exact .nil

lemma readFrom_blank (hz : IsSpace z) (h : ReadFrom ss t) : ReadFrom ss (z ++ '\n' :: t) := by
  intro o lead before offset hlead hbefore
  cases hlead with
  | none => exact (readBehind_newline hz h).ended before offset
  | @run t' z' hrun hz' =>
    have hread := (readBehind_newline (isSpace_append hz' hz) h).running t' before offset hrun hbefore
    simpa using hread

lemma Lead.trim (h : Lead o lead) (hw : IsIndent w) (ht : trim t = t) (hne : t ≠ []) :
    ∃ z, Text.trim (lead ++ (w ++ t)) = z ++ t ∧ (z = [] ↔ o = false) := by
  have hspace := isSpace_of_isIndent hw
  cases h with
  | none => exact ⟨[], by rw [List.nil_append, trim_space_append hspace, ht]; rfl, by simp⟩
  | @run t' z hrun hz =>
    obtain ⟨w', g, c, k, hw', -, -, rfl⟩ := (hrun []).opens
    obtain ⟨t, last, rfl, hlast⟩ := exists_last_of_trim ht hne
    let front := "import".toList ++ (g ++ c :: k) ++ (z ++ w)
    have htext : w' ++ ("import".toList ++ (g ++ c :: k)) ++ z ++ (w ++ (t ++ [last])) =
        w' ++ (front ++ (t ++ [last])) := by simp [front]
    refine ⟨front, ?_, by simp [front]⟩
    rw [htext, trim_space_append (isSpace_of_isIndent hw')]
    exact trim_of_ends (o := 'i') rfl (by decide) (List.append_assoc front t [last]).symm hlast

lemma IsStatement.trim_text (h : IsStatement s) : Text.trim s.text = s.text := by
  have hends {quote : Char} {e : List Char} (hquote : IsStringQuote quote) (he : e = [] ∨ e = [';']) (x : List Char) :
      Text.trim ("import".toList ++ (x ++ quote :: e)) = "import".toList ++ (x ++ quote :: e) := by
    rcases he with rfl | rfl
    · exact trim_of_ends (o := 'i') rfl (by decide) (List.append_assoc _ x [quote]).symm
        (not_blank_of_isStringQuote hquote)
    · have hlast : "import".toList ++ (x ++ [quote, ';']) = "import".toList ++ (x ++ [quote]) ++ [';'] := by simp
      exact trim_of_ends (o := 'i') rfl (by decide) hlast (by decide)
  cases h with
  | @named g k u v quote m e _ _ _ _ hquote _ _ he =>
    simpa [fromText] using hends hquote he (g ++ (k ++ (u ++ ("from".toList ++ (v ++ quote :: m)))))
  | @bare g quote m e _ hquote _ _ he => simpa using hends hquote he (g ++ quote :: m)

lemma IsStatement.text_ne_nil (h : IsStatement s) : s.text ≠ [] := by
  cases h <;> exact List.cons_ne_nil _ _

/-- A statement with a `from` clause is read, and what follows it is read on its own. -/
lemma readFrom_named (hw : IsIndent w) (hs : IsStatement s) (hnamed : s.named = true) (h : ReadBehind ss t) :
    ReadFrom (s :: ss) (w ++ (s.text ++ t)) := by
  intro o lead before offset hlead hbefore
  obtain ⟨z, htrim, hz⟩ := hlead.trim hw hs.trim_text hs.text_ne_nil
  cases hs with
  | bare => cases hnamed
  | @named g k u v quote m e hg hk hu hv hquote hm hplain he =>
    obtain ⟨c, k, rfl⟩ := List.exists_cons_of_ne_nil hk.nonempty
    have hopening : Opening (lead ++ (w ++ ("import".toList ++ (g ++ c :: k)))) (fromText u v quote m e ++ t) :=
      hlead.opening hw hg (not_blank_of_trim hk.trimmed) hk.undivided
        (by simpa [fromText] using hk.noFrom hu hv hquote (m ++ quote :: (e ++ t)))
    obtain ⟨found, hfound, hmodule, hchars⟩ :=
      matchAt?_of_opening hu hv hquote hm hplain he h.next hopening hbefore offset
    have hstop := (covers_of_matchAt? hfound).2.2.2
    rw [hchars] at hstop
    have hsplit : lead ++ (w ++ ("import".toList ++ (g ++ (c :: k ++ fromText u v quote m e)) ++ t)) =
        lead ++ (w ++ ("import".toList ++ (g ++ c :: k))) ++ fromText u v quote m e ++ t := by simp
    rw [hsplit, findAllFrom_of_match (by simp) hfound hstop, namedBehind, if_pos rfl]
    refine .cons ⟨hmodule, z, ?_, hz⟩ ?_
    · rw [hchars, ← htrim]
      simp
    · rw [show decide (Statement.IsOpen _) = false from rfl]
      exact h.ended _ _

/-- An import for its side effects is no match of its own. What follows it belongs to it just when it is open. -/
lemma readFrom_bare (hw : IsIndent w) (hs : IsStatement s) (hbare : s.named = false) (h : ReadBehind ss t) :
    ReadFrom (s :: ss) (w ++ (s.text ++ t)) := by
  intro o lead before offset hlead hbefore
  cases hs with
  | named => cases hbare
  | @bare g quote m e hg hquote hm hfree he =>
    have hfrom := noFrom_quoted hquote hfree he
    have hmark : ';' ≠ quote := by rcases hquote with rfl | rfl <;> decide
    have hopen : Statement.IsOpen ⟨false, m, "import".toList ++ (g ++ quote :: (m ++ quote :: e))⟩ ↔
        ';' ∉ m ++ quote :: e := by
      have hgap : ';' ∉ g := not_mem_of_isSpace hg.1 (by decide)
      simp [Statement.IsOpen, hgap, hmark]
    rw [namedBehind, if_neg Bool.false_ne_true]
    by_cases hdivided : ';' ∈ m ++ quote :: e
    · have hnewline : '\n' ∉ m ++ quote :: e := by
        have hfeed : '\n' ≠ quote := by rcases hquote with rfl | rfl <;> decide
        rcases he with rfl | rfl <;> simp [hm, hfeed]
      obtain ⟨x, y, hxy, -⟩ := List.eq_append_cons_of_mem hdivided
      rw [hxy] at hnewline
      have hquiet : NoFrom (lead ++ (w ++ ("import".toList ++ (g ++ quote :: x)))) (';' :: y ++ t) := by
        have hall := hlead.noFrom_statement hw hg (hfrom t)
        rw [hxy] at hall
        exact NoFrom.left (by simpa using hall)
      have hsplit : lead ++ (w ++ ("import".toList ++ (g ++ quote :: (m ++ quote :: e)) ++ t)) =
          lead ++ (w ++ ("import".toList ++ (g ++ quote :: x))) ++ (';' :: y ++ t) := by simp [hxy]
      rw [hsplit, findAllFrom_of_quiet (quiet_of_noFrom hquiet (.inr ⟨_, rfl⟩)),
        findAllFrom_of_quietBehind (quietBehind_semicolon (fun hmem => hnewline (by simp [hmem])) _ t),
        decide_eq_false fun hnot => hopen.1 hnot hdivided]
      exact h.ended _ _
    · have hundivided : ';' ∉ quote :: (m ++ quote :: e) := List.not_mem_cons_of_ne_of_not_mem hmark hdivided
      have hopening (rest : List Char) :=
        hlead.opening hw hg (not_blank_of_isStringQuote hquote) hundivided (hfrom rest)
      have hsplit : lead ++ (w ++ ("import".toList ++ (g ++ quote :: (m ++ quote :: e)) ++ t)) =
          lead ++ (w ++ ("import".toList ++ (g ++ quote :: (m ++ quote :: e)))) ++ t := by simp
      rw [hsplit, decide_eq_true (hopen.2 hdivided)]
      exact h.running _ before offset hopening hbefore

/-- All statements of a text are read, each with what is pending before it. -/
theorem StatementsText.readFrom (h : StatementsText ss source) : ReadFrom ss source := by
  have hstatement {w t : List Char} {s : Statement} {ss : List Statement} (hw : IsIndent w) (hs : IsStatement s)
      (h : ReadBehind ss t) : ReadFrom (s :: ss) (w ++ (s.text ++ t)) := by
    cases hnamed : s.named with
    | true => exact readFrom_named hw hs hnamed h
    | false => exact readFrom_bare hw hs hnamed h
  induction h with
  | nil hfree => exact readFrom_rest hfree
  | blank hz _ ih => exact readFrom_blank hz ih
  | last hw hs hz => exact hstatement hw hs (readBehind_space hz)
  | cons hw hs hz _ ih => exact hstatement hw hs (readBehind_newline hz ih)

/-! ## The module of an import -/

def upPattern : Pattern := char '.' ++ Pattern.optional (char '.') ++ char '/'

def segmentPattern : Pattern := many1 (fun c => isWord c || c == '.' || c == '@' || c == '-') ++ char '/'

lemma relativeComponents_eq : relativeComponents = textStart ++ upPattern ++ repeated upPattern ++
    repeated segmentPattern ++ text "components" ++ (char '/' <|> textEnd) := rfl

lemma spells_upPattern :
    Spells upPattern x ↔ ∃ first, (first = ".".toList ∨ first = "..".toList) ∧ x = first ++ ['/'] := by
  constructor
  · rintro ⟨_, _, ⟨_, _, hdot, hdots, rfl⟩, hslash, rfl⟩
    obtain rfl := spells_char.1 hdot
    obtain rfl := spells_char.1 hslash
    rcases hdots with hdots | rfl
    · obtain rfl := spells_char.1 hdots
      exact ⟨"..".toList, .inr rfl, rfl⟩
    · exact ⟨".".toList, .inl rfl, rfl⟩
  · rintro ⟨first, rfl | rfl, rfl⟩
    · exact ⟨['.'], ['/'], ⟨['.'], [], spells_char.2 rfl, .inr rfl, rfl⟩, spells_char.2 rfl, rfl⟩
    · exact ⟨['.', '.'], ['/'], ⟨['.'], ['.'], spells_char.2 rfl, .inl (spells_char.2 rfl), rfl⟩,
        spells_char.2 rfl, rfl⟩

lemma spells_segmentPattern : Spells segmentPattern x ↔ ∃ name, IsPlainName name ∧ x = name ++ ['/'] := by
  have hname {name : List Char} :
      Spells (many1 fun c => isWord c || c == '.' || c == '@' || c == '-') name ↔ IsPlainName name := by
    simp [spells_many1, IsPlainName, or_assoc]
  rw [segmentPattern, spells_append]
  simp only [hname, spells_char]
  constructor
  · rintro ⟨name, _, hplain, rfl, rfl⟩
    exact ⟨name, hplain, rfl⟩
  · rintro ⟨name, hplain, rfl⟩
    exact ⟨name, ['/'], hplain, rfl, rfl⟩

/-- Directories one after the other. -/
lemma exists_names {body : Pattern} (hbody : ∀ x, Spells body x → ∃ name, IsPlainName name ∧ x = name ++ ['/'])
    (h : Spells (repeated body) x) :
    ∃ names : List (List Char), (∀ name ∈ names, IsPlainName name) ∧ x = names.flatMap (· ++ ['/']) := by
  obtain ⟨parts, hparts, rfl⟩ := h
  induction parts with
  | nil => exact ⟨[], by simp, rfl⟩
  | cons part parts ih =>
    obtain ⟨hpart, hothers⟩ := List.forall_mem_cons.1 hparts
    obtain ⟨names, hnames, hflat⟩ := ih hothers
    obtain ⟨name, hname, rfl⟩ := hbody part hpart
    exact ⟨name :: names, List.forall_mem_cons.2 ⟨hname, hnames⟩, by rw [List.flatten_cons, hflat, List.flatMap_cons]⟩

lemma isPlainName_up (h : name = ".".toList ∨ name = "..".toList) : IsPlainName name := by
  rcases h with rfl | rfl
  · exact ⟨by decide, by simp⟩
  · exact ⟨by decide, by simp⟩

lemma isComponentsPath_of_reaches {u v : List Char} {q : Point}
    (h : Reaches relativeComponents ⟨u.getLast?, u.length, v, []⟩ q) : IsComponentsPath (u ++ v) := by
  rw [relativeComponents_eq] at h
  obtain ⟨_, ⟨_, ⟨_, ⟨_, ⟨_, ⟨hstart, rfl⟩, hup⟩, hups⟩, hsegments⟩, hkeyword⟩, hend⟩ := h
  obtain ⟨x, r₁, hx, hv, rfl⟩ := (reaches_iff_of_plain (by simp [upPattern])).1 hup
  obtain ⟨y, r₂, hy, hr₁, rfl⟩ := (reaches_iff_of_plain (by simp [upPattern, Plain])).1 hups
  obtain ⟨z, r₃, hz, hr₂, rfl⟩ := (reaches_iff_of_plain (by simp [segmentPattern, Plain])).1 hsegments
  obtain ⟨k, r₄, hk, hr₃, rfl⟩ := (reaches_iff_of_plain (plain_text _)).1 hkeyword
  obtain ⟨first, hfirst, rfl⟩ := spells_upPattern.1 hx
  obtain ⟨ups, hplain, rfl⟩ := exists_names (fun x hx => by
    obtain ⟨up, hup, rfl⟩ := spells_upPattern.1 hx
    exact ⟨up, isPlainName_up hup, rfl⟩) hy
  obtain ⟨names, hnames, rfl⟩ := exists_names (fun x hx => spells_segmentPattern.1 hx) hz
  obtain rfl := spells_text.1 hk
  obtain rfl : u = [] := by simpa using hstart
  obtain rfl : r₁ = _ ++ r₂ := hr₁
  obtain rfl : r₂ = _ ++ r₃ := hr₂
  obtain rfl : r₃ = _ ++ r₄ := hr₃
  have htail : ∃ rest : List (List Char), r₄ = rest.flatMap (['/'] ++ ·) := by
    rcases hend with ⟨c, tail, htail, hc, -⟩ | ⟨hempty, -⟩
    · obtain rfl := eq_of_beq hc
      exact ⟨[tail], by simpa using htail⟩
    · exact ⟨[], by simpa using hempty⟩
  obtain ⟨rest, rfl⟩ := htail
  refine ⟨first, ups ++ names, rest, hfirst, List.forall_mem_append.2 ⟨hplain, hnames⟩, ?_⟩
  rw [← List.cons_append, join_append_cons, show v = _ from hv]
  simp

lemma exists_reaches_of_isComponentsPath (h : IsComponentsPath m) :
    ∃ q, Reaches relativeComponents ⟨none, 0, m, []⟩ q := by
  obtain ⟨first, names, rest, hfirst, hnames, rfl⟩ := h
  let tail := rest.flatMap (['/'] ++ ·)
  let directories := names.flatMap (· ++ ['/'])
  let p : Point := ⟨none, 0, first ++ ['/'] ++ (directories ++ ("components".toList ++ tail)), []⟩
  let p₁ := p.over (first ++ ['/']) (directories ++ ("components".toList ++ tail))
  let p₂ := p₁.over directories ("components".toList ++ tail)
  have hup : Reaches upPattern p p₁ :=
    reaches_of_spells (by simp [upPattern]) (spells_upPattern.2 ⟨first, hfirst, rfl⟩) rfl
  have hspells : Spells (repeated segmentPattern) directories := by
    refine ⟨names.map (· ++ ['/']), fun part hpart => ?_, List.flatMap_def⟩
    obtain ⟨name, hname, rfl⟩ := List.mem_map.1 hpart
    exact spells_segmentPattern.2 ⟨name, hnames name hname, rfl⟩
  have hsegments : Reaches (repeated segmentPattern) p₁ p₂ :=
    reaches_of_spells (by simp [segmentPattern, Plain]) hspells rfl
  have hkeyword : Reaches (text "components") p₂ (p₂.over "components".toList tail) :=
    reaches_of_spells (plain_text _) (spells_text.2 rfl) rfl
  have hend : ∃ q, Reaches (char '/' <|> textEnd) (p₂.over "components".toList tail) q := by
    cases rest with
    | nil => exact ⟨_, .inr ⟨rfl, rfl⟩⟩
    | cons x rest => exact ⟨_, .inl ⟨'/', _, rfl, rfl, rfl⟩⟩
  obtain ⟨q, hq⟩ := hend
  have htext : join ['/'] (first :: (names ++ "components".toList :: rest)) = p.rest := by
    rw [← List.cons_append, join_append_cons, List.flatMap_cons, List.append_assoc]
  rw [relativeComponents_eq, htext]
  exact ⟨q, _, ⟨_, ⟨_, ⟨_, ⟨_, ⟨rfl, rfl⟩, hup⟩, .refl⟩, hsegments⟩, hkeyword⟩, hq⟩

lemma isMatch_relativeComponents_iff : relativeComponents.isMatch m = true ↔ IsComponentsPath m := by
  rw [isMatch_iff]
  constructor
  · rintro ⟨u, v, q, rfl, hq⟩
    exact isComponentsPath_of_reaches hq
  · intro h
    obtain ⟨q, hq⟩ := exists_reaches_of_isComponentsPath h
    exact ⟨[], m, q, rfl, hq⟩

lemma isComponentModule_iff {package module : List Char} : isComponentModule package module = true ↔
    module = package ∨ (∃ rest, module = package ++ '/' :: rest) ∨ IsComponentsPath module := by
  have hpart : ((stripStart? package module).bind List.head? == some '/') = true ↔
      ∃ rest, module = package ++ '/' :: rest := by
    rw [beq_iff_eq, stripStart?]
    constructor
    · intro h
      split_ifs at h with hstart
      · obtain ⟨rest, rfl⟩ := List.isPrefixOf_iff_prefix.1 hstart
        rw [List.drop_left, Option.bind_some] at h
        obtain ⟨rest, rfl⟩ := List.head?_eq_some_iff.1 h
        exact ⟨rest, rfl⟩
      · cases h
    · rintro ⟨rest, rfl⟩
      rw [if_pos (List.isPrefixOf_iff_prefix.2 (List.prefix_append _ _)), List.drop_left]
      rfl
  rw [isComponentModule, Bool.or_eq_true, Bool.or_eq_true, hpart, isMatch_relativeComponents_iff, beq_iff_eq, or_assoc]

/-! ## Pages with imports -/

/-- Without quotes nothing in a text reads as a `from` clause. -/
lemma fromFree_of_not_quote (h : ∀ c ∈ t, ¬ IsStringQuote c) : FromFree t := by
  rintro a b hab - ⟨u, v, quote, rest, -, -, hquote, hb⟩
  rw [List.append_nil] at hb
  have hmem : quote ∈ ' ' :: t := by
    rw [hab, hb]
    simp
  rcases List.mem_cons.1 hmem with rfl | hmem
  · exact absurd (not_blank_of_isStringQuote hquote) (by decide)
  · exact h quote hmem hquote

/-- Nor in a quoted module that has no quotes in it and no white space around it. -/
lemma fromFree_quoted (hquote : IsStringQuote quote) (hne : m ≠ []) (htrim : trim m = m)
    (hm : ∀ c ∈ m, ¬ IsStringQuote c) : FromFree (quote :: (m ++ [quote])) := by
  have hmark : quote ≠ 'f' := by rcases hquote with rfl | rfl <;> decide
  intro a b hab hb hfrom
  rw [List.append_nil] at hfrom
  rcases List.cons_eq_append_iff.1 hab with ⟨rfl, rfl⟩ | ⟨a, rfl, hquoted⟩
  · exact not_fromStart_space_cons (not_blank_of_isStringQuote hquote) hmark _ hfrom
  rcases List.cons_eq_append_iff.1 hquoted with ⟨rfl, rfl⟩ | ⟨a, rfl, hbehind⟩
  · exact not_fromStart_cons (not_blank_of_isStringQuote hquote) _ hfrom
  -- the quote behind the word is the closing one, so the module would end with a blank
  have hfront : m = a ++ b.dropLast := by
    rw [← List.dropLast_append_of_ne_nil hb, ← hbehind, List.dropLast_concat]
  obtain ⟨u, v, quote', rest, hu, ⟨hv, hvne⟩, hquote', rfl⟩ := hfrom
  have hlead : ∀ c ∈ a ++ (u ++ ("from".toList ++ v)), ¬ IsStringQuote c := by
    intro c hc
    rcases List.mem_append.1 hc with hc | hc
    · exact hm c (hfront ▸ List.mem_append_left _ hc)
    · exact not_quote_of_mem_from hu ⟨hv, hvne⟩ hc
  have hmodule : m = a ++ (u ++ ("from".toList ++ v)) :=
    eq_of_append_quote hm hlead hquote hquote' (u := []) (v := rest) (by simpa using hbehind)
  obtain ⟨m', last, rfl, hlast⟩ := exists_last_of_trim htrim hne
  have hmem : (a ++ (u ++ ("from".toList ++ v))).getLast? = some last := by rw [← hmodule, List.getLast?_concat]
  simp only [← List.append_assoc] at hmem
  rw [List.getLast?_append_of_ne_nil _ hvne] at hmem
  rw [hv last (List.mem_of_getLast? hmem)] at hlast
  cases hlast

def bareImport (m e : List Char) : Statement := ⟨false, m, "import".toList ++ ([' '] ++ '\'' :: (m ++ '\'' :: e))⟩

def namedImport (k m e : List Char) : Statement :=
  ⟨true, m, "import".toList ++ ([' '] ++ (k ++ fromText [' '] [' '] '\'' m e))⟩

lemma isGap_blank : IsGap [' '] := ⟨by decide, by decide⟩

lemma isStatement_namedImport (hk : k ≠ [] ∧ trim k = k ∧ ∀ c ∈ k, c ≠ ';' ∧ ¬ IsStringQuote c)
    (hm : m ≠ [] ∧ ∀ c ∈ m, ¬ IsStringQuote c) (he : e = [] ∨ e = [';']) : IsStatement (namedImport k m e) :=
  have hclause : IsClause k :=
    ⟨hk.1, hk.2.1, fun hmem => (hk.2.2 _ hmem).1 rfl, fromFree_of_not_quote fun c hc => (hk.2.2 c hc).2⟩
  .named isGap_blank hclause isGap_blank isGap_blank (.inl rfl) hm.1 hm.2 he

/-- Statements in lines of their own. -/
lemma statementsText_lines (hss : ∀ s ∈ ss, IsStatement s) (ht : FromFree t) :
    StatementsText ss (ss.flatMap (fun s => s.text ++ ['\n']) ++ t) := by
  induction ss with
  | nil => exact .nil ht
  | cons s ss ih =>
    obtain ⟨hs, hothers⟩ := List.forall_mem_cons.1 hss
    have hline := StatementsText.cons (w := []) (z := []) (by simp [IsIndent]) hs isSpace_nil (ih hothers)
    simpa using hline

lemma not_counts_of_module {package : String} (h : isComponentModule package.toList s.module = false) :
    ¬ s.Counts package := by
  intro hcounts
  rw [isComponentModule_iff.2 hcounts.2] at h
  cases h

def mixedImports : List Statement := [
  bareImport "./button.css".toList [';'],
  namedImport "React".toList "react".toList [],
  namedImport "\x7b\n  Button,\n  Link\n\x7d".toList "../components/button".toList [],
  namedImport "* as Tabs".toList "@acme/ui/tabs".toList [';']]

/-! ## The import example -/

lemma namedBehind_append (o : Bool) (lead : List Statement) (s : Statement) (after : List Statement) :
    namedBehind o (lead ++ s :: after) = namedBehind o lead ++
      namedBehind ((lead.getLast?.map fun x => decide x.IsOpen).getD o) (s :: after) := by
  induction lead generalizing o with
  | nil => rfl
  | cons x lead ih =>
    have hlast : ((x :: lead).getLast?.map fun x => decide x.IsOpen).getD o =
        (lead.getLast?.map fun x => decide x.IsOpen).getD (decide x.IsOpen) := by
      cases lead with
      | nil => rfl
      | cons y lead =>
        rw [List.getLast?_cons_cons, List.getLast?_eq_some_getLast (List.cons_ne_nil _ _)]
        rfl
    rw [List.cons_append, namedBehind, namedBehind, ih, hlast]
    split_ifs <;> rfl

lemma mem_of_mem_namedBehind {y : Bool × Statement} (h : y ∈ namedBehind o ss) : y.2.named = true ∧ y.2 ∈ ss := by
  induction ss generalizing o with
  | nil => cases h
  | cons s ss ih =>
    rw [namedBehind] at h
    split_ifs at h with hnamed
    · rcases List.mem_cons.1 h with rfl | h
      · exact ⟨hnamed, .head _⟩
      · exact ⟨(ih h).1, .tail _ (ih h).2⟩
    · exact ⟨(ih h).1, .tail _ (ih h).2⟩

lemma find?_of_forall₂ {α β : Type} {r : α → β → Prop} {p : α → Bool} {q : β → Bool} {l : List α} {l' : List β}
    (hpq : ∀ x y, r x y → p x = q y) (h : List.Forall₂ r l l') : (l'.find? q = none → l.find? p = none) ∧
      ∀ y, l'.find? q = some y → ∃ x, l.find? p = some x ∧ r x y := by
  induction h with
  | nil => simp
  | @cons x y _ _ hxy _ ih =>
    rw [List.find?_cons, List.find?_cons, hpq x y hxy]
    cases q y with
    | true => simpa using hxy
    | false => exact ih

/-- The module of an import that is read is one of the component package. -/
def countsIn (package : String) (y : Bool × Statement) : Bool := isComponentModule package.toList y.2.module

lemma find?_namedBehind_eq_none (h : ∀ s ∈ ss, ¬ s.Counts package) :
    (namedBehind o ss).find? (countsIn package) = none := by
  refine List.find?_eq_none.2 fun y hy hcounts => ?_
  obtain ⟨hnamed, hmem⟩ := mem_of_mem_namedBehind hy
  exact h y.2 hmem ⟨hnamed, isComponentModule_iff.1 hcounts⟩

/-- The first of the imports that are read is the first of the statements that count. -/
lemma find?_namedBehind {lead : List Statement} (hlead : ∀ x ∈ lead, ¬ x.Counts package) (hs : s.Counts package) :
    (namedBehind o (lead ++ s :: after)).find? (countsIn package) =
      some ((lead.getLast?.map fun x => decide x.IsOpen).getD o, s) := by
  rw [namedBehind_append, List.find?_append, find?_namedBehind_eq_none hlead, Option.none_or, namedBehind, if_pos hs.1]
  exact List.find?_cons_of_pos (isComponentModule_iff.2 hs.2)

/-- The import example is the first import with a `from` clause whose module counts, and it is exactly the text of that
statement just when no open import stands directly before it. Without such a statement there is no import example. -/
theorem importExample?_of_statements (h : StatementsText ss source) (package : String) :
    ((∀ s ∈ ss, ¬ s.Counts package) → importExample? source package = none) ∧
      ∀ lead s after, ss = lead ++ s :: after → (∀ x ∈ lead, ¬ x.Counts package) → s.Counts package →
        (importExample? source package = some ⟨"Import", String.ofList s.text, .importLine⟩ ↔
          ∀ x ∈ lead.getLast?, ¬ x.IsOpen) := by
  have hread : List.Forall₂ Reads (importPattern.findAll source) (namedBehind false ss) :=
    h.readFrom false [] none 0 .none (by rintro c ⟨⟩)
  obtain ⟨hfindNone, hfindSome⟩ := find?_of_forall₂ (p := fun found => isComponentModule package.toList (found.get 1))
    (q := countsIn package) (fun found y hy => by rw [hy.1]; rfl) hread
  rw [importExample?]
  constructor
  · intro hss
    rw [hfindNone (find?_namedBehind_eq_none hss)]
    rfl
  · rintro lead s after rfl hlead hs
    obtain ⟨found, hfound, -, z, htrim, hz⟩ := hfindSome _ (find?_namedBehind hlead hs)
    have hopen : z = [] ↔ ∀ x ∈ lead.getLast?, ¬ x.IsOpen := by
      rw [hz]
      cases lead.getLast? <;> simp
    rw [hfound, Option.map_some, htrim, ← hopen]
    simp

theorem importExample?_of_statements_mixed :
    importExample? (mixedImports.flatMap (fun s => s.text ++ ['\n']) ++ "\nexport default Link;\n".toList) "@acme/ui" =
      some ⟨"Import", "import \x7b\n  Button,\n  Link\n\x7d from '../components/button'", .importLine⟩ := by
  have hstatements : ∀ s ∈ mixedImports, IsStatement s := by
    have hside : IsStatement (bareImport "./button.css".toList [';']) :=
      .bare isGap_blank (.inl rfl) (by decide) (fromFree_quoted (.inl rfl) (by decide) (by decide) (by decide))
        (.inr rfl)
    simp only [mixedImports, List.forall_mem_cons, List.not_mem_nil, false_imp_iff, implies_true, and_true]
    refine ⟨hside, isStatement_namedImport ?_ ?_ (.inl rfl), isStatement_namedImport ?_ ?_ (.inl rfl),
      isStatement_namedImport ?_ ?_ (.inr rfl)⟩ <;> decide +kernel
  have hcounts : ∀ s ∈ mixedImports.take 2, isComponentModule "@acme/ui".toList s.module = false := by decide +kernel
  have hpath : IsComponentsPath "../components/button".toList :=
    ⟨"..".toList, [], ["button".toList], .inr rfl, by simp, by decide +kernel⟩
  have hrest : FromFree "\nexport default Link;\n".toList := fromFree_of_not_quote (by decide)
  have hread := (importExample?_of_statements (statementsText_lines hstatements hrest) "@acme/ui").2
    (mixedImports.take 2) _ _ rfl (fun s hs => not_counts_of_module (hcounts s hs)) ⟨rfl, .inr (.inr hpath)⟩
  exact hread.2 (by decide +kernel)

/-- An import for its side effects that no semicolon ends is taken into the import example. -/
theorem importExample?_behind_open_import :
    importExample? "import './button.css'\nimport \x7b Button \x7d from '@acme/ui'\n".toList "@acme/ui" =
      some ⟨"Import", "import './button.css'\nimport \x7b Button \x7d from '@acme/ui'", .importLine⟩ := by
  cbv

end UiCatalog.Demo
