import UiCatalog.Proofs.CodeText
import UiCatalog.Proofs.Declarations
import UiCatalog.Proofs.IgnoredComments
import UiCatalog.Proofs.ParameterDefaults
import UiCatalog.Proofs.VariantRoundTrip

/-!
# Parameter patterns as they may be written

A declaration whose first parameter is an object pattern, in every layout: names, renamings, defaults and a rest.
Reading the declaration gives back the names and defaults, in order.
-/
namespace UiCatalog.Parameters

open Text Pattern Code VariantConfig

/-! ## Layouts -/

/-- Type arguments, or none. -/
def TypesText (t : List Char) : Prop := t = [] ∨ ∃ types, '>' ∉ types ∧ t = '<' :: (types ++ ['>'])

/-- The call of a wrapper up to its argument, or nothing. -/
def WrapperText (t : List Char) : Prop :=
  t = [] ∨ ∃ scope wrapper u types v w, (scope = [] ∨ scope = "React.".toList) ∧
    (wrapper = "forwardRef".toList ∨ wrapper = "memo".toList) ∧ IsSpace u ∧ TypesText types ∧ IsSpace v ∧ IsSpace w ∧
    t = scope ++ (wrapper ++ (u ++ (types ++ (v ++ '(' :: w))))

/-- What stands before the parameters of a function expression, or nothing for those of an arrow function. -/
def FunctionText (t : List Char) : Prop :=
  t = [] ∨ ∃ u own v, IsSpace u ∧ (∀ c ∈ own, isIdentifierPart c = true) ∧ IsSpace v ∧
    t = "function".toList ++ (u ++ (own ++ v))

/-- A declaration of `name` as a function, up to its first parameter. -/
inductive OpeningText (name : List Char) : List Char → Prop
  | function {w u types v x} : IsGap w → IsSpace u → TypesText types → IsSpace v → IsSpace x →
      OpeningText name ("function".toList ++ (w ++ (name ++ (u ++ (types ++ (v ++ '(' :: x))))))
  | binding {keyword w u v wrapper function x} : keyword ∈ keywords → IsGap w → IsSpace u → IsSpace v →
      WrapperText wrapper → FunctionText function → IsSpace x →
      OpeningText name (keyword ++ (w ++ (name ++ (u ++ '=' :: (v ++ (wrapper ++ (function ++ '(' :: x)))))))

/-- The text starts in the shape of a declaration of `name`. -/
inductive DeclarationStart (name : List Char) : List Char → Prop
  | function {w u c rest} : IsGap w → IsSpace u → c = '(' ∨ c = '<' →
      DeclarationStart name ("function".toList ++ (w ++ (name ++ (u ++ c :: rest))))
  | binding {keyword w u c rest} : keyword ∈ keywords → IsGap w → IsSpace u → c = '=' ∨ c = ':' →
      DeclarationStart name (keyword ++ (w ++ (name ++ (u ++ c :: rest))))

/-- The call of a wrapper in the opening pattern. -/
def wrapperCall : Pattern :=
  (text "forwardRef" <|> text "memo") ++ blanks ++ typeArguments ++ blanks ++ char '(' ++ blanks

/-- The keyword of a function expression in the opening pattern, with its own name. -/
def functionKeyword : Pattern := text "function" ++ blanks ++ many isIdentifierPart ++ blanks

/-- A function declaration up to its first parameter. -/
def functionStart (name : String) : Pattern :=
  text "function" ++ gap ++ text name ++ blanks ++ typeArguments ++ blanks ++ char '('

/-- A binding to a function up to the first parameter of that. -/
def bindingStart (name : String) : Pattern :=
  bindingKeyword ++ gap ++ text name ++ annotatedEquals ++ blanks ++ qualifier ++ optional wrapperCall ++
    optional functionKeyword ++ char '('

lemma openingPattern_eq (name : String) :
    openingPattern name = (functionStart name <|> bindingStart name) ++ blanks ++ char '\x7b' := rfl

variable {β : Type} {p : Point} {next : Point → Option β} {r : β} {name t u v w x types rest : List Char}

/-! ## The declaration -/

/-- The brackets of the parameters are found behind any type arguments. -/
lemma run_types (hu : IsSpace u) (ht : TypesText types) (hv : IsSpace v)
    (hp : p.rest = u ++ (types ++ (v ++ '(' :: rest)))
    (hnext : next (p.over (u ++ (types ++ (v ++ ['(']))) rest) = some r) :
    run blanks p (fun q => run typeArguments q fun q => run blanks q fun q => run (char '(') q next) = some r := by
  obtain rfl | ⟨inner, hinner, rfl⟩ := ht
  · have huv : IsSpace (u ++ v) := fun c hc => (List.mem_append.mp hc).elim (hu c) (hv c)
    rw [List.nil_append, ← List.append_assoc] at hp
    refine run_blanks huv hp (by decide) ?_
    refine (run_optional_none ?_).trans ?_
    · rw [run_append, run_append]
      exact run_one_eq_none rfl (by decide)
    refine run_blanks isSpace_nil rfl (by decide) ?_
    rw [run_char rfl, Point.over_over, Point.over_over]
    simpa using hnext
  · have hp' : p.rest = u ++ '<' :: (inner ++ '>' :: (v ++ '(' :: rest)) := by simpa using hp
    refine run_blanks hu hp' (by decide) (run_optional_some ?_)
    have hnone : ∀ c ∈ inner, noneOf ">" c = true := fun c hc => by
      rw [noneOf_iff]
      simpa using ne_of_mem_of_not_mem hc hinner
    have hstop : noneOf ">" '>' = false := by simp [noneOf]
    rw [run_append, run_append, run_char rfl]
    refine run_many inner _ rfl hnone (fun d hd => Option.some.inj hd ▸ hstop) ?_
    rw [run_char rfl]
    refine run_blanks hv rfl (by decide) ?_
    rw [run_char rfl]
    simp only [Point.over_over]
    simpa using hnext

/-- Behind a wrapper stands the keyword of a function expression or the parameters of an arrow function. -/
lemma head_functionText (h : FunctionText t) (rest : List Char) :
    (∀ d ∈ (t ++ '(' :: rest).head?, isBlank d = false) ∧ ¬ "React.".toList <+: t ++ '(' :: rest ∧
      ¬ "forwardRef".toList <+: t ++ '(' :: rest ∧ ¬ "memo".toList <+: t ++ '(' :: rest := by
  obtain rfl | ⟨u, own, v, -, -, -, rfl⟩ := h
  · simp
    decide
  · simp
    decide

lemma run_wrapperCall {wrapper : List Char} (hwrapper : wrapper = "forwardRef".toList ∨ wrapper = "memo".toList)
    (hu : IsSpace u) (ht : TypesText types) (hv : IsSpace v) (hw : IsSpace w)
    (hrest : ∀ d ∈ rest.head?, isBlank d = false) (hp : p.rest = wrapper ++ (u ++ (types ++ (v ++ '(' :: (w ++ rest)))))
    (hnext : next (p.over (wrapper ++ (u ++ (types ++ (v ++ '(' :: w)))) rest) = some r) :
    run wrapperCall p next = some r := by
  have hcall : run (chars wrapper) p (fun q => run blanks q fun q => run typeArguments q fun q => run blanks q fun q =>
      run (char '(') q fun q => run blanks q next) = some r := by
    refine (run_chars wrapper _ hp).trans ?_
    refine run_types hu ht hv rfl ?_
    refine run_many w rest rfl hw hrest ?_
    simp only [Point.over_over]
    simpa using hnext
  simp only [wrapperCall, run_append]
  rcases hwrapper with rfl | rfl
  · exact run_orElse_left hcall
  · refine (run_orElse_right (run_chars_eq_none ?_)).trans hcall
    rw [hp]
    simp

lemma run_wrapper {function : List Char} (ht : WrapperText t) (hf : FunctionText function)
    (hp : p.rest = t ++ (function ++ '(' :: rest)) (hnext : next (p.over t (function ++ '(' :: rest)) = some r) :
    run qualifier p (fun q => run (Pattern.optional wrapperCall) q next) = some r := by
  obtain ⟨hblank, hreact, hforward, hmemo⟩ := head_functionText hf rest
  obtain rfl | ⟨scope, wrapper, u, types, v, w, hscope, hwrapper, hu, htypes, hv, hw, rfl⟩ := ht
  · have hnone : run wrapperCall p next = none := by
      simp only [wrapperCall, run_append]
      refine (run_orElse_right (run_chars_eq_none ?_)).trans (run_chars_eq_none ?_)
      · rwa [hp]
      · rwa [hp]
    refine (run_optional_none (run_chars_eq_none (by rwa [hp]))).trans ?_
    refine (run_optional_none hnone).trans ?_
    rw [← Point.over_nil p, hp]
    exact hnext
  · have hcall {p : Point} (hp : p.rest = wrapper ++ (u ++ (types ++ (v ++ '(' :: (w ++ (function ++ '(' :: rest))))))
        (hnext : next (p.over (wrapper ++ (u ++ (types ++ (v ++ '(' :: w)))) (function ++ '(' :: rest)) = some r) :
        run (Pattern.optional wrapperCall) p next = some r :=
      run_optional_some (run_wrapperCall hwrapper hu htypes hv hw hblank hp hnext)
    simp only [List.append_assoc, List.cons_append] at hp
    rcases hscope with rfl | rfl
    · refine (run_optional_none (run_chars_eq_none ?_)).trans (hcall hp hnext)
      rw [hp]
      rcases hwrapper with rfl | rfl <;> simp
    · refine run_optional_some ((run_chars "React.".toList _ hp).trans (hcall rfl ?_))
      rwa [Point.over_over]

lemma run_functionKeyword (ht : FunctionText t) (hp : p.rest = t ++ '(' :: rest)
    (hnext : next (p.over t ('(' :: rest)) = some r) : run (Pattern.optional functionKeyword) p next = some r := by
  obtain rfl | ⟨u, own, v, hu, hown, hv, rfl⟩ := ht
  · refine (run_optional_none ?_).trans ?_
    · simp only [functionKeyword, run_append]
      refine run_chars_eq_none ?_
      rw [hp]
      simp
    · rw [← Point.over_nil p, hp]
      exact hnext
  · refine run_optional_some ?_
    simp only [functionKeyword, run_append]
    refine (run_chars "function".toList (u ++ (own ++ (v ++ '(' :: rest))) (by simpa using hp)).trans ?_
    have hparen : ∀ d ∈ (v ++ '(' :: rest).head?, isIdentifierPart d = false :=
      head?_append_cons (not_part_of_isSpace hv) (by decide)
    cases own with
    | nil =>
      -- without a name the first run of blanks takes those of the second
      have huv : IsSpace (u ++ v) := fun c hc => (List.mem_append.mp hc).elim (hu c) (hv c)
      refine run_many (u ++ v) ('(' :: rest) (by simp) huv (fun d hd => Option.some.inj hd ▸ (by decide)) ?_
      refine run_many [] ('(' :: rest) rfl (by simp) (fun d hd => Option.some.inj hd ▸ (by decide)) ?_
      refine run_many [] ('(' :: rest) rfl isSpace_nil (fun d hd => Option.some.inj hd ▸ (by decide)) ?_
      simp only [Point.over_over]
      simpa using hnext
    | cons c own =>
      have hc : isBlank c = false := not_blank_of_isIdentifierPart (hown c (.head _))
      refine run_many u _ rfl hu (fun d hd => Option.some.inj hd ▸ hc) ?_
      refine run_many (c :: own) _ rfl hown hparen ?_
      refine run_many v _ rfl hv (fun d hd => Option.some.inj hd ▸ (by decide)) ?_
      simp only [Point.over_over]
      simpa using hnext

/-- Nothing blank stands where a binding gives its value. -/
lemma head_wrapperText {function : List Char} (ht : WrapperText t) (hf : FunctionText function) (rest : List Char) :
    ∀ d ∈ (t ++ (function ++ '(' :: rest)).head?, isBlank d = false := by
  obtain rfl | ⟨scope, wrapper, u, types, v, w, rfl | rfl, rfl | rfl, -, -, -, -, rfl⟩ := ht
  · exact (head_functionText hf rest).1
  all_goals simp; decide

variable {name : String} {opening : List Char}

lemma head_name (hn : Code.IsName name.toList) (rest : List Char) :
    ∀ d ∈ (name.toList ++ rest).head?, isBlank d = false := by
  obtain ⟨c, cs, hcs⟩ := List.exists_cons_of_ne_nil hn.1
  rw [hcs]
  exact fun d hd => Option.some.inj hd ▸ not_blank_of_isIdentifierPart (hn.2 c (hcs ▸ .head _))

lemma run_functionStart (rest : List Char) (hn : Code.IsName name.toList) (hw : IsGap w) (hu : IsSpace u)
    (ht : TypesText types) (hv : IsSpace v)
    (hp : p.rest = "function".toList ++ (w ++ (name.toList ++ (u ++ (types ++ (v ++ '(' :: rest))))))
    (hnext : next (p.over ("function".toList ++ (w ++ (name.toList ++ (u ++ (types ++ (v ++ ['('])))))) rest) =
      some r) : run (functionStart name) p next = some r := by
  simp only [functionStart, run_append]
  refine (run_chars "function".toList _ hp).trans ?_
  refine run_many1 w _ rfl hw.2 hw.1 (head_name hn _) ?_
  refine (run_chars name.toList _ rfl).trans ?_
  refine run_types hu ht hv rfl ?_
  simp only [Point.over_over]
  simpa using hnext

lemma run_bindingStart {keyword wrapper function : List Char} (rest : List Char) (hn : Code.IsName name.toList)
    (hk : keyword ∈ keywords) (hw : IsGap w) (hu : IsSpace u) (hv : IsSpace v) (ht : WrapperText wrapper)
    (hf : FunctionText function)
    (hp : p.rest = keyword ++ (w ++ (name.toList ++ (u ++ '=' :: (v ++ (wrapper ++ (function ++ '(' :: rest)))))))
    (hnext : next (p.over (keyword ++ (w ++ (name.toList ++ (u ++ '=' :: (v ++ (wrapper ++ (function ++ ['('])))))))
      rest) = some r) : run (bindingStart name) p next = some r := by
  simp only [bindingStart, annotatedEquals, run_append]
  refine run_bindingKeyword hk _ hp ?_
  refine run_many1 w _ rfl hw.2 hw.1 (head_name hn _) ?_
  refine (run_chars name.toList _ rfl).trans ?_
  refine run_blanks hu rfl (by decide) ?_
  refine (run_optional_none ?_).trans ?_
  · rw [run_append]
    exact run_one_eq_none rfl (by decide)
  rw [run_char rfl]
  refine run_many v _ rfl hv (head_wrapperText ht hf _) ?_
  refine run_wrapper ht hf rfl ?_
  refine run_functionKeyword hf rfl ?_
  rw [run_char rfl]
  simp only [Point.over_over]
  simpa using hnext

/-- Along a declaration the pattern leads up to the brace. -/
lemma matchAt?_opening (hn : Code.IsName name.toList) (ho : OpeningText name.toList opening) (before : Option Char)
    (offset : Nat) (rest : List Char) :
    ∃ found, matchAt? (openingPattern name) before offset (opening ++ '\x7b' :: rest) = some found ∧
      found.stop = offset + opening.length + 1 := by
  refine ⟨⟨⟨offset, offset + opening.length + 1, opening ++ '\x7b' :: rest⟩, []⟩, ?_, rfl⟩
  rw [matchAt?, openingPattern_eq, run_append, run_append]
  cases ho with
  | @function w u types v x hw hu htypes hv hx =>
    refine run_orElse_left (run_functionStart (x ++ '\x7b' :: rest) hn hw hu htypes hv (by simp) ?_)
    refine run_blanks hx rfl (by decide) ?_
    rw [run_char rfl]
    simp [Point.over]
    omega
  | @binding keyword w u v wrapper function x hk hw hu hv hwrapper hfunction hx =>
    refine (run_orElse_right ?_).trans
      (run_bindingStart (x ++ '\x7b' :: rest) hn hk hw hu hv hwrapper hfunction (by simp) ?_)
    · simp only [functionStart, run_append]
      refine run_chars_eq_none ?_
      rcases mem_keywords.mp hk with rfl | rfl | rfl <;> simp
    refine run_blanks hx rfl (by decide) ?_
    rw [run_char rfl]
    simp [Point.over]
    omega

lemma declarationStart_of_spells_function (h : Spells (functionStart name) t) (rest : List Char) :
    DeclarationStart name.toList (t ++ rest) := by
  simp only [functionStart, typeArguments, spells_append, spells_text, spells_gap_iff, spells_blanks, spells_char,
    spells_optional] at h
  obtain ⟨_, _, ⟨_, v, ⟨_, types, ⟨_, u, ⟨_, _, ⟨_, w, rfl, hw, rfl⟩, rfl, rfl⟩, hu, rfl⟩, htypes, rfl⟩, hv, rfl⟩, rfl,
    rfl⟩ := h
  rcases htypes with ⟨_, _, ⟨_, inner, rfl, -, rfl⟩, rfl, rfl⟩ | rfl
  · have hstart : DeclarationStart name.toList ("function".toList ++ (w ++ (name.toList ++ (u ++ '<' :: (inner ++
        '>' :: (v ++ '(' :: rest)))))) := .function hw hu (.inr rfl)
    simpa using hstart
  · have huv : IsSpace (u ++ v) := fun c hc => (List.mem_append.mp hc).elim (hu c) (hv c)
    have hstart : DeclarationStart name.toList ("function".toList ++ (w ++ (name.toList ++ (u ++ v ++ '(' :: rest)))) :=
      .function hw huv (.inl rfl)
    simpa using hstart

lemma declarationStart_of_spells_binding (h : Spells (bindingStart name) t) (rest : List Char) :
    DeclarationStart name.toList (t ++ rest) := by
  simp only [bindingStart, spells_append, spells_text, spells_gap_iff, spells_blanks, spells_char,
    spells_bindingKeyword, spells_annotatedEquals] at h
  obtain ⟨_, _, ⟨_, function, ⟨_, wrapper, ⟨_, scope, ⟨_, v, ⟨_, _, ⟨_, _, ⟨keyword, w, hk, hw, rfl⟩, rfl, rfl⟩,
    ⟨u, ascription, hu, hascription, rfl⟩, rfl⟩, -, rfl⟩, -, rfl⟩, -, rfl⟩, -, rfl⟩, rfl, rfl⟩ := h
  let value := v ++ (scope ++ (wrapper ++ (function ++ '(' :: rest)))
  rcases hascription with rfl | ⟨type, -, rfl⟩
  · have hstart : DeclarationStart name.toList (keyword ++ (w ++ (name.toList ++ (u ++ '=' :: value)))) :=
      .binding hk hw hu (.inl rfl)
    simpa [value] using hstart
  · have hstart : DeclarationStart name.toList
        (keyword ++ (w ++ (name.toList ++ (u ++ ':' :: (type ++ '=' :: value))))) := .binding hk hw hu (.inr rfl)
    simpa [value] using hstart

/-- What the pattern covers starts a declaration. -/
lemma declarationStart_of_spells (h : Spells (openingPattern name) t) (rest : List Char) :
    DeclarationStart name.toList (t ++ rest) := by
  rw [openingPattern_eq] at h
  obtain ⟨_, brace, ⟨start, x, hstart, -, rfl⟩, -, rfl⟩ := h
  rw [List.append_assoc, List.append_assoc]
  exact hstart.elim (declarationStart_of_spells_function · _) (declarationStart_of_spells_binding · _)

/-- The first declaration is found, and its parameters start behind it. -/
lemma find?_opening {before : List Char} (hn : Code.IsName name.toList) (ho : OpeningText name.toList opening)
    (hfirst : ∀ a b, before ++ (opening ++ '\x7b' :: rest) = a ++ b → DeclarationStart name.toList b →
      before.length ≤ a.length) :
    ∃ found, (openingPattern name).find? (before ++ (opening ++ '\x7b' :: rest)) = some found ∧
      found.stop = before.length + opening.length + 1 := by
  have hquiet : Quiet (openingPattern name) before (opening ++ '\x7b' :: rest) := by
    intro a b last offset hsplit hb
    refine Option.eq_none_iff_forall_ne_some.2 fun found hfound => ?_
    obtain ⟨t, u, ht, htext⟩ := exists_spells_of_matchAt? hfound
    have hle := hfirst a (b ++ (opening ++ '\x7b' :: rest)) (by rw [hsplit, List.append_assoc])
      (htext ▸ declarationStart_of_spells ht u)
    rw [hsplit, List.length_append] at hle
    have hpos := List.length_pos_iff.2 hb
    omega
  obtain ⟨found, hfound, hstop⟩ := matchAt?_opening hn ho (before.getLast?.or none) (0 + before.length) rest
  refine ⟨found, ?_, by omega⟩
  rw [find?, findFrom?_of_quiet hquiet]
  exact findFrom?_of_match hfound

/-! ## Entries -/

/-- A default as it may be written, or none; shown as literals in single quotes and other code trimmed. -/
def DefaultsTo : Option String → List Char → Prop
  | none, t => t = []
  | some shown, t => ∃ v, t = '=' :: v ∧
      ((∃ content, Padded (Quotes (fun _ => True) content) v ∧ shown.toList = ['\''] ++ content ++ ['\'']) ∨
        (WellFormed (· ≠ ',') v ∧ (∀ c ∈ (trim v).head?, isQuote c = false) ∧ shown.toList = trim v))

/-- White space, or a colon and a local name. -/
def RenamingText (t : List Char) : Prop :=
  IsSpace t ∨ ∃ w w' own u, IsSpace w ∧ IsSpace w' ∧ IsName own ∧ IsSpace u ∧ t = w ++ ':' :: (w' ++ (own ++ u))

/-- An entry of a parameter pattern. -/
inductive Entry where
  | parameter (name : String) (default? : Option String)
  | rest

/-- What is listed of an entry. -/
def Entry.listed : Entry → Option (String × Option String)
  | .parameter name default? => some (name, default?)
  | .rest => none

/-- An entry in any layout. -/
def Entry.Text : Entry → List Char → Prop
  | .parameter name default?, t => ∃ w renamed default, IsSpace w ∧ IsName name.toList ∧ RenamingText renamed ∧
      DefaultsTo default? default ∧ t = w ++ (name.toList ++ (renamed ++ default))
  | .rest, t => ∃ w w' own u, IsSpace w ∧ IsSpace w' ∧ IsName own ∧ IsSpace u ∧
      t = w ++ ("...".toList ++ (w' ++ (own ++ u)))

variable {default? : Option String} {default renamed n : List Char}

lemma showLiteral_of_not_quote (h : ∀ c ∈ (trim v).head?, isQuote c = false) : showLiteral (trim v) = trim v := by
  cases htrim : trim v with
  | nil => rfl
  | cons c cs =>
    have hc : isQuote c = false := h c (by rw [htrim]; rfl)
    have htwice : trim (c :: cs) = c :: cs := htrim ▸ trim_trim v
    rw [showLiteral, unquote?_of_not_quote hc (not_blank_of_trim htwice)]

/-- A written default reads as it is to be shown. -/
lemma defaultIn?_of_defaultsTo (h : DefaultsTo default? default) :
    (defaultIn? default).map String.ofList = default? := by
  cases default? with
  | none =>
    obtain rfl := h
    rfl
  | some shown =>
    obtain ⟨v, rfl, ⟨content, hv, hshown⟩ | ⟨-, hquote, hshown⟩⟩ := h
    · obtain ⟨literal, hliteral, htrim⟩ := trim_padded hv fun u hu => trim_quotes hu
      have hread : defaultIn? ('=' :: v) = some (showLiteral (trim v)) := defaultIn?_equals (v := []) (by simp) v
      have hliteralShown : showLiteral literal = shown.toList := by rw [showLiteral, unquote?_quotes hliteral, hshown]
      rw [hread, htrim, hliteralShown, Option.map_some, String.ofList_toList]
    · have hread : defaultIn? ('=' :: v) = some (showLiteral (trim v)) := defaultIn?_equals (v := []) (by simp) v
      rw [hread, showLiteral_of_not_quote hquote, Option.map_some, ← hshown, String.ofList_toList]

lemma segment_of_defaultsTo (h : DefaultsTo default? default) : Segment (· ≠ ',') default := by
  cases default? with
  | none =>
    obtain rfl := h
    exact piece_nil.segment
  | some shown =>
    have hequals : Piece (· ≠ ',') ['='] := piece_of_plain (by decide)
    obtain ⟨v, rfl, ⟨content, hv, -⟩ | ⟨hcode, -, -⟩⟩ := h
    · have hpiece := piece_of_padded hv (fun u hu => piece_literal (isLiteral_of_quotes hu)) not_comma_of_blank
      exact (hequals.append hpiece).segment
    · exact hequals.append_segment (hcode.segment (by decide))

lemma readEntry_text {entry : Entry} (h : entry.Text t) : Parameters.readEntry t = entry.listed := by
  cases entry with
  | parameter name default? =>
    obtain ⟨w, renamed, default, hw, hn, hrenamed, hdefault, rfl⟩ := h
    have hstart : default = [] ∨ ∃ v, default = '=' :: v ∨ default = ':' :: v := by
      cases default? with
      | none => exact .inl hdefault
      | some shown =>
        obtain ⟨v, rfl, -⟩ := hdefault
        exact .inr ⟨v, .inl rfl⟩
    rw [Entry.listed, ← defaultIn?_of_defaultsTo hdefault]
    obtain hu | ⟨u, u', own, u'', hu, hu', hown, hu'', rfl⟩ := hrenamed
    · have hread := readEntry_name hn hw hu hstart
      rwa [List.append_assoc, List.append_assoc, String.ofList_toList] at hread
    · have hlocal : '=' ∉ ':' :: (u' ++ (own ++ u'')) := by
        have hname : '=' ∉ own := fun hmem => absurd (hown.2 _ hmem) (by decide)
        simp [hname, not_mem_of_isSpace hu' (c := '=') (by decide), not_mem_of_isSpace hu'' (c := '=') (by decide)]
      have hread := readEntry_name hn hw hu (t := ':' :: (u' ++ (own ++ u'')) ++ default) (.inr ⟨_, .inr rfl⟩)
      rw [defaultIn?_append hlocal, String.ofList_toList] at hread
      simpa using hread
  | rest =>
    obtain ⟨w, w', own, u, hw, -, -, -, rfl⟩ := h
    have hdots : BehindDots (w ++ "...".toList) := ⟨w, [], hw, rfl⟩
    have hread := readEntry_behindDots hdots (w' ++ (own ++ u))
    rwa [List.append_assoc] at hread

lemma segment_text {entry : Entry} (h : entry.Text t) : Segment (· ≠ ',') t ∧ ¬ IsSpace t := by
  have hspace {w : List Char} (hw : IsSpace w) : Piece (· ≠ ',') w := piece_of_isSpace hw not_comma_of_blank
  have hname {n : List Char} (hn : IsName n) : Piece (· ≠ ',') n :=
    piece_of_plain fun c hc => ⟨(bare_iff.mp (hn.2 c hc)).1, (bare_iff.mp (hn.2 c hc)).2.2.2.1⟩
  have hcolon : Piece (· ≠ ',') [':'] := piece_of_plain (by decide)
  cases entry with
  | parameter name default? =>
    obtain ⟨w, renamed, default, hw, hn, hrenamed, hdefault, rfl⟩ := h
    have hpiece : Piece (· ≠ ',') renamed := by
      obtain hu | ⟨u, u', own, u'', hu, hu', hown, hu'', rfl⟩ := hrenamed
      · exact hspace hu
      · exact (hspace hu).append (hcolon.append ((hspace hu').append ((hname hown).append (hspace hu''))))
    refine ⟨?_, ?_⟩
    · have hsegment := ((hspace hw).append ((hname hn).append hpiece)).append_segment (segment_of_defaultsTo hdefault)
      simpa using hsegment
    · obtain ⟨c, cs, hcs, hc, -⟩ := hn.exists_cons
      exact not_isSpace_of_mem (c := c) (by simp [hcs]) hc
  | rest =>
    obtain ⟨w, w', own, u, hw, hw', hown, hu, rfl⟩ := h
    have hdots : Piece (· ≠ ',') "...".toList := piece_of_plain (by decide)
    refine ⟨((hspace hw).append (hdots.append ((hspace hw').append ((hname hown).append (hspace hu))))).segment, ?_⟩
    exact not_isSpace_of_mem (c := '.') (by simp) (by decide)

/-! ## The whole pattern -/

/-- The entries of a pattern are listed in order. -/
lemma filterMap_listText {entries : List Entry} {body : List Char} (h : ListText (entries.map Entry.Text) body) :
    Segment (fun _ => True) body ∧
      (splitTopLevel ',' body).filterMap Parameters.readEntry = entries.filterMap Entry.listed := by
  have hkinds : ∀ kind ∈ entries.map Entry.Text, ∀ u, kind u → Segment (· ≠ ',') u ∧ ¬ IsSpace u := by
    simp only [List.forall_mem_map]
    exact fun entry _ u hu => segment_text hu
  obtain ⟨hsegment, hitems⟩ := splitTopLevel_items h hkinds
  refine ⟨hsegment, ?_⟩
  rw [List.forall₂_map_left_iff] at hitems
  generalize splitTopLevel ',' body = pieces at hitems
  clear h hkinds
  induction hitems with
  | nil => rfl
  | cons hentry _ ih =>
    rw [List.filterMap_cons, List.filterMap_cons, readEntry_text hentry, ih]

/-- The parameters of the first declaration are listed as they are written, one for each entry but the rest. -/
theorem destructuredParameters_written {before body after : List Char} {entries : List Entry}
    (hn : Code.IsName name.toList) (ho : OpeningText name.toList opening)
    (hbody : ListText (entries.map Entry.Text) body)
    (hfirst : ∀ a b, before ++ (opening ++ '\x7b' :: (body ++ '\x7d' :: after)) = a ++ b →
      DeclarationStart name.toList b → before.length ≤ a.length) :
    destructuredParameters (before ++ (opening ++ '\x7b' :: (body ++ '\x7d' :: after))) name =
      entries.filterMap Entry.listed := by
  obtain ⟨hsegment, hlisted⟩ := filterMap_listText hbody
  obtain ⟨found, hfound, hstop⟩ := find?_opening hn ho hfirst
  have hplace : found.stop - 1 = (before ++ opening).length := by
    rw [List.length_append]
    omega
  have hread : bracketBody? (before ++ (opening ++ '\x7b' :: (body ++ '\x7d' :: after))) (found.stop - 1) =
      some body := by
    rw [hplace, ← List.append_assoc]
    exact bracketBody?_segment (by decide) (by decide) hsegment List.drop_left
  rw [destructuredParameters, hfound, Option.bind_some, hread]
  exact hlisted

/-! ## A declaration with every kind of entry -/

def memoOpening : List Char := "const Tag = React.memo<Props>(function Inner(".toList

def memoBody : List Char :=
  " size: own = 'm\"d', onPick = (a, b) => \x7b return a / b \x7d, gap, ...others ".toList

lemma openingText_memo : OpeningText "Tag".toList memoOpening := by
  have hspace : IsSpace [' '] := by decide
  have hgap : IsGap [' '] := ⟨hspace, List.cons_ne_nil _ _⟩
  have hwrapper : WrapperText "React.memo<Props>(".toList :=
    .inr ⟨"React.".toList, "memo".toList, [], "<Props>".toList, [], [], .inr rfl, .inr rfl, isSpace_nil,
      .inr ⟨"Props".toList, by decide, rfl⟩, isSpace_nil, isSpace_nil, rfl⟩
  have hfunction : FunctionText "function Inner".toList :=
    .inr ⟨[' '], "Inner".toList, [], hspace, by decide, isSpace_nil, rfl⟩
  exact OpeningText.binding (.head _) hgap hspace hspace hwrapper hfunction isSpace_nil

lemma wellFormed_of_plain {free : Char → Prop} {rest : List Char} (h : ∀ c ∈ t, isPlain c = true ∧ free c)
    (hrest : WellFormed free rest) : WellFormed free (t ++ rest) := by
  induction t with
  | nil => exact hrest
  | cons c t ih =>
    obtain ⟨⟨hplain, hfree⟩, ht⟩ := List.forall_mem_cons.1 h
    simp only [isPlain, Bool.and_eq_true, Bool.not_eq_true', bne_iff_ne] at hplain
    exact .plain hplain.1.1 (depthStep_of_plain (by simpa [isPlain] using hplain)) hfree
      (fun hc => absurd hc hplain.1.2) (ih ht)

/-- A function over two parameters that divides. -/
def quotientCode : List Char :=
  " ".toList ++ '(' :: ("a, b".toList ++ ')' :: (" => ".toList ++
    '\x7b' :: (" return a ".toList ++ '/' :: (" b ".toList ++ []) ++ '\x7d' :: [])))

lemma wellFormed_quotientCode : WellFormed (· ≠ ',') quotientCode := by
  have hslash : KeepsSlash (" b ".toList ++ []) := by simp [KeepsSlash]
  have hquotient : WellFormed (fun _ => True) (" return a ".toList ++ '/' :: (" b ".toList ++ [])) :=
    wellFormed_of_plain (by decide) (.plain rfl rfl trivial (fun _ => hslash) (wellFormed_of_plain (by decide) .nil))
  have hparameters : WellFormed (fun _ => True) ("a, b".toList ++ []) := wellFormed_of_plain (by decide) .nil
  exact wellFormed_of_plain (by decide) (.group rfl rfl hparameters (wellFormed_of_plain (by decide)
    (.group rfl rfl hquotient .nil)))

def memoEntries : List Entry :=
  [.parameter "size" (some "'m\"d'"), .parameter "onPick" (some "(a, b) => \x7b return a / b \x7d"),
    .parameter "gap" none, .rest]

lemma listText_memo : ListText (memoEntries.map Entry.Text) memoBody := by
  have hspace : IsSpace [' '] := by decide
  have hname (n : String) (h : n.toList ≠ [] ∧ ∀ c ∈ n.toList, isBare c = true) : IsName n.toList := h
  have hsize : Entry.Text (.parameter "size" (some "'m\"d'")) " size: own = 'm\"d'".toList := by
    refine ⟨[' '], ": own ".toList, "= 'm\"d'".toList, hspace, hname "size" (by decide), ?_, ?_, rfl⟩
    · exact .inr ⟨[], [' '], "own".toList, [' '], isSpace_nil, hspace, hname "own" (by decide), hspace, rfl⟩
    · have hliteral : Quotes (fun _ => True) "m\"d".toList "'m\"d'".toList := quotes_self '\'' (by decide)
      exact ⟨_, rfl, .inl ⟨_, ⟨[' '], _, [], hspace, hliteral, isSpace_nil, rfl⟩, rfl⟩⟩
  have hquote : ∀ c ∈ (trim quotientCode).head?, isQuote c = false := by
    have hhead : (trim quotientCode).head? = some '(' := by decide +kernel
    rw [hhead]
    exact fun c hc => Option.some.inj hc ▸ rfl
  have hpick : Entry.Text (.parameter "onPick" (some "(a, b) => \x7b return a / b \x7d"))
      (" onPick =".toList ++ quotientCode) :=
    ⟨[' '], [' '], '=' :: quotientCode, hspace, hname "onPick" (by decide), .inl hspace,
      ⟨_, rfl, .inr ⟨wellFormed_quotientCode, hquote, by decide +kernel⟩⟩, rfl⟩
  have hgap : Entry.Text (.parameter "gap" none) " gap".toList :=
    ⟨[' '], [], [], hspace, hname "gap" (by decide), .inl isSpace_nil, rfl, rfl⟩
  have hrest : Entry.Text .rest " ...others ".toList :=
    ⟨[' '], [], "others".toList, [' '], hspace, isSpace_nil, hname "others" (by decide), hspace, rfl⟩
  exact listText_join (.cons hsize (.cons hpick (.cons hgap (.cons hrest .nil))))

/-- A declaration starts with one of its keywords. -/
lemma DeclarationStart.keyword (h : DeclarationStart n t) :
    ∃ keyword ∈ "function".toList :: keywords, keyword <+: t := by
  cases h with
  | function => exact ⟨_, .head _, List.prefix_append _ _⟩
  | binding hk => exact ⟨_, .tail _ hk, List.prefix_append _ _⟩

/-- The entries of a named function in a call of `React.memo`. -/
theorem destructuredParameters_memo :
    Code.IsName "Tag".toList ∧ OpeningText "Tag".toList memoOpening ∧ ListText (memoEntries.map Entry.Text) memoBody ∧
      destructuredParameters
          ("export ".toList ++ (memoOpening ++ '\x7b' :: (memoBody ++ '\x7d' :: ") \x7b\x7d)".toList))) "Tag" =
        [("size", some "'m\"d'"), ("onPick", some "(a, b) => \x7b return a / b \x7d"), ("gap", none)] := by
  have hname : Code.IsName "Tag".toList := ⟨by decide, by decide⟩
  refine ⟨hname, openingText_memo, listText_memo, ?_⟩
  refine destructuredParameters_written hname openingText_memo listText_memo fun a b hsplit hstart => ?_
  -- none of the keywords stands within the word before the declaration
  obtain ⟨keyword, hk, hfront⟩ := hstart.keyword
  have hnone : ∀ i < 7, ∀ keyword ∈ "function".toList :: keywords, ¬ keyword <+:
      ("export ".toList ++ (memoOpening ++ '\x7b' :: (memoBody ++ '\x7d' :: ") \x7b\x7d)".toList))).drop i := by
    decide +kernel
  by_contra hlt
  rw [hsplit] at hnone
  exact hnone a.length (Nat.lt_of_not_le hlt) keyword hk (by rwa [List.drop_left])

/-! ## Type parameters -/

/-- Type arguments end at the first closing angle bracket, so that behind nested ones no parameters are found, and the
type parameters of an arrow function are not passed at all. -/
theorem parameters_lost_behind_nested_types :
    destructuredParameters "function Tag<T>(\x7b size = 'md' \x7d) \x7b\x7d".toList "Tag" =
        [("size", some "'md'")] ∧
      destructuredParameters "function Tag<T extends Box<T>>(\x7b size = 'md' \x7d) \x7b\x7d".toList "Tag" = [] ∧
      destructuredParameters "const Tag = memo<Props<string>>((\x7b size = 'md' \x7d) => null)".toList "Tag" = [] ∧
      destructuredParameters "const Tag = <T,>(\x7b size = 'md' \x7d) => null".toList "Tag" = [] :=
  ⟨by cbv, by cbv, by cbv, by cbv⟩

end UiCatalog.Parameters
