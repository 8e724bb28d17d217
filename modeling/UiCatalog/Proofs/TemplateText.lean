import UiCatalog.Proofs.ElementAttributes

/-!
# The text of template literals

The escapes of a template literal are replaced one kind after the other. That is the same as decoding them in one pass,
since no replacement makes an escape out of what was none, so any text can be escaped and comes back as it was.
-/
namespace UiCatalog.Demo

open Text Pattern Code

/-- A character that a template literal has a backslash before. -/
def isMarked (c : Char) : Bool := c == '\\' || c == '\x60' || c == '$'

/-- One pass over the text: an escaped mark stands for itself, and any other backslash stays. -/
def decodeTemplate : List Char → List Char
  | [] => []
  | ['\\'] => ['\\']
  | '\\' :: c :: cs => if isMarked c then c :: decodeTemplate cs else '\\' :: decodeTemplate (c :: cs)
  | c :: cs => c :: decodeTemplate cs

/-- The text with a backslash before every mark. -/
def encodeTemplate : List Char → List Char
  | [] => []
  | c :: cs => if isMarked c then '\\' :: c :: encodeTemplate cs else c :: encodeTemplate cs

variable {c x y : Char} {t : List Char}

/-! ## Replacing one kind of escapes -/

lemma replace_escape (x : Char) (new t : List Char) :
    replace ['\\', x] new ('\\' :: x :: t) = new ++ replace ['\\', x] new t :=
  replace_self_append (List.cons_ne_nil _ _) t

lemma replace_other (hc : c ≠ '\\') (x : Char) (new t : List Char) :
    replace ['\\', x] new (c :: t) = c :: replace ['\\', x] new t :=
  replace_other_head (by simpa using Ne.symm hc) (List.cons_ne_nil _ _) t

lemma replace_backslash (h : t.head? ≠ some x) (new : List Char) :
    replace ['\\', x] new ('\\' :: t) = '\\' :: replace ['\\', x] new t := by
  refine replace_other_start ?_
  rintro ⟨u, hu⟩
  rw [← (List.cons.inj hu).2] at h
  exact h rfl

lemma replace_backslash_cons (hc : c ≠ x) (new t : List Char) :
    replace ['\\', x] new ('\\' :: c :: t) = '\\' :: replace ['\\', x] new (c :: t) :=
  replace_backslash (by simpa using hc) new

/-- A replacement only puts its own character at the start. -/
lemma head?_replace (hne : y ≠ x) (h : (replace ['\\', x] [x] t).head? = some y) : t.head? = some y := by
  cases t with
  | nil => exact h
  | cons c t =>
    by_cases hc : c = '\\'
    · subst hc
      by_cases hx : t.head? = some x
      · obtain ⟨u, rfl⟩ : ∃ u, t = x :: u := by
          cases t with
          | nil => cases hx
          | cons d u => exact ⟨u, by rw [Option.some.inj hx]⟩
        rw [replace_escape] at h
        exact absurd (Option.some.inj h).symm hne
      · rwa [replace_backslash hx] at h
    · rwa [replace_other hc] at h

/-! ## One pass -/

lemma unescape_other (hc : c ≠ '\\') (t : List Char) : unescapeTemplate (c :: t) = c :: unescapeTemplate t := by
  rw [unescapeTemplate, replace_other hc, replace_other hc, replace_other hc, unescapeTemplate]

/-- A backslash stays when no mark follows: what follows it begins with no mark after a replacement either. -/
lemma unescape_backslash (h : ∀ c ∈ t.head?, isMarked c = false) :
    unescapeTemplate ('\\' :: t) = '\\' :: unescapeTemplate t := by
  have hnot (c : Char) (hc : isMarked c = true) : t.head? ≠ some c := fun ht => by simp [h c ht] at hc
  have hdollar : (replace ['\\', '\x60'] ['\x60'] t).head? ≠ some '$' := fun ht =>
    hnot '$' (by decide) (head?_replace (by decide) ht)
  have hback : (replace ['\\', '$'] ['$'] (replace ['\\', '\x60'] ['\x60'] t)).head? ≠ some '\\' := fun ht =>
    hnot '\\' (by decide) (head?_replace (by decide) (head?_replace (by decide) ht))
  rw [unescapeTemplate, replace_backslash (hnot '\x60' (by decide)), replace_backslash hdollar, replace_backslash hback,
    unescapeTemplate]

lemma unescape_mark (hc : c = '\x60' ∨ c = '$') (t : List Char) :
    unescapeTemplate ('\\' :: c :: t) = c :: unescapeTemplate t := by
  rcases hc with rfl | rfl
  · rw [unescapeTemplate, replace_escape, List.singleton_append, replace_other (by decide), replace_other (by decide),
      unescapeTemplate]
  · rw [unescapeTemplate, replace_backslash_cons (by decide), replace_other (by decide) '\x60', replace_escape,
      List.singleton_append, replace_other (by decide), unescapeTemplate]

/-- Of two backslashes the second may be taken for the escape of what follows, which leaves the first. -/
lemma unescape_twice (t : List Char) : unescapeTemplate ('\\' :: '\\' :: t) = '\\' :: unescapeTemplate t := by
  by_cases hmark : t.head? = some '\x60' ∨ t.head? = some '$'
  · obtain ⟨c, u, rfl, hc⟩ : ∃ c u, t = c :: u ∧ (c = '\x60' ∨ c = '$') := by
      cases t with
      | nil => simp at hmark
      | cons c u => exact ⟨c, u, rfl, by simpa using hmark⟩
    rcases hc with rfl | rfl
    · rw [unescape_other (by decide) u, unescapeTemplate, replace_backslash_cons (by decide), replace_escape,
        List.singleton_append, replace_backslash_cons (by decide), replace_other (by decide) '$',
        replace_backslash_cons (by decide), replace_other (by decide), unescapeTemplate]
    · rw [unescape_other (by decide) u, unescapeTemplate, replace_backslash_cons (by decide),
        replace_backslash_cons (by decide), replace_other (by decide) '\x60', replace_backslash_cons (by decide),
        replace_escape, List.singleton_append, replace_backslash_cons (by decide), replace_other (by decide),
        unescapeTemplate]
  · rw [not_or] at hmark
    have hdollar : (replace ['\\', '\x60'] ['\x60'] t).head? ≠ some '$' := fun ht =>
      hmark.2 (head?_replace (by decide) ht)
    rw [unescapeTemplate, replace_backslash_cons (by decide), replace_backslash hmark.1,
      replace_backslash_cons (by decide), replace_backslash hdollar, replace_escape, List.singleton_append,
      unescapeTemplate]

lemma isMarked_iff : isMarked c = true ↔ c = '\\' ∨ c = '\x60' ∨ c = '$' := by
  simp [isMarked, or_assoc]

/-- The replacements one after the other decode as the one pass does. -/
theorem unescapeTemplate_eq (t : List Char) : unescapeTemplate t = decodeTemplate t := by
  fun_induction decodeTemplate t with
  | case1 => rfl
  | case2 => rfl
  | case3 c cs hc ih =>
    rw [← ih]
    rcases isMarked_iff.1 hc with rfl | hc
    · exact unescape_twice cs
    · exact unescape_mark hc cs
  | case4 c cs hc ih =>
    rw [unescape_backslash (by simpa using hc), ih]
  | case5 c cs hlast hescape ih =>
    have hc : c ≠ '\\' := by
      rintro rfl
      cases cs with
      | nil => exact hlast rfl rfl
      | cons d ds => exact hescape d ds rfl rfl
    rw [unescape_other hc, ih]

/-! ## Escaped texts -/

lemma decode_encode (s : List Char) : decodeTemplate (encodeTemplate s) = s := by
  induction s with
  | nil => rfl
  | cons c cs ih =>
    rw [encodeTemplate]
    split_ifs with hc
    · rw [decodeTemplate, if_pos hc, ih]
    · have hback : c ≠ '\\' := by
        rintro rfl
        exact hc (by decide)
      rw [decodeTemplate.eq_4 _ _ (fun h _ => hback h) (fun _ _ h _ => hback h), ih]

lemma unescape_encode (s : List Char) : unescapeTemplate (encodeTemplate s) = s := by
  rw [unescapeTemplate_eq, decode_encode]

/-- Escaped text is the inside of a literal, whatever it holds. -/
lemma templateBody_encode (s : List Char) : TemplateBody (encodeTemplate s) := by
  induction s with
  | nil => exact .nil
  | cons c cs ih =>
    rw [encodeTemplate]
    split_ifs with hc
    · refine .escape ?_ ih
      rintro rfl
      exact absurd hc (by decide)
    · rw [isMarked_iff, not_or, not_or] at hc
      exact .plain hc.2.1 hc.1 ih

/-! ## An example with any code -/

/-- An example whose code is the text `s`. -/
def examplePage (s : List Char) : List Char :=
  "<Example code=\x7b\x60".toList ++ (encodeTemplate s ++ "\x60\x7d />".toList)

lemma isCodeElement_examplePage (s : List Char) : IsCodeElement "Example" "<Example".toList [' ']
    ("code=\x7b\x60".toList ++ (encodeTemplate s ++ ['\x60', '\x7d'])) " />".toList (encodeTemplate s) :=
  (passable_blank "Example").isCodeElement ⟨[], .inl rfl, rfl⟩
    ⟨[], [], isSpace_nil, templateBody_encode s, isSpace_nil, rfl⟩ _

theorem exists_example_of_code (s : List Char) (hs : dedent s ≠ []) (package : String) :
    ∃ e ∈ examples (examplePage s) package, e.code = String.ofList (dedent s) := by
  obtain ⟨found, hfound, -, hget⟩ := matchAt?_of_isCodeElement isWordName_example (isCodeElement_examplePage s) none 0
  have hpage : "<Example".toList ++ ([' '] ++ (("code=\x7b\x60".toList ++ (encodeTemplate s ++ ['\x60', '\x7d'])) ++
      " />".toList)) = examplePage s := by
    rw [List.append_assoc, List.append_assoc]
    rfl
  rw [hpage] at hfound
  have hcode : codeOf found = dedent s := by rw [codeOf, hget, unescape_encode]
  have helement : (Example.Kind.live, found) ∈ elements (examplePage s) :=
    List.mem_append_left _ (List.mem_map_of_mem (mem_findAll_of_matchAt? hfound))
  obtain ⟨kept, c, -, -, hexamples, hdrops⟩ := exists_listing (examplePage s) package
  rw [hexamples]
  obtain hempty | ⟨e, he, hknown⟩ | ⟨hblock, -⟩ := hdrops _ helement
  · exact absurd (hcode.symm.trans hempty) hs
  · exact ⟨e, he, hknown.trans (congrArg String.ofList hcode)⟩
  · cases hblock

/-- Escapes are decoded in one pass, so that any code can be written in a literal and is listed as it was, but for its
common indentation. -/
theorem template_decoded (s : List Char) :
    (∀ t, unescapeTemplate t = decodeTemplate t) ∧ unescapeTemplate (encodeTemplate s) = s ∧
      (dedent s ≠ [] → ∀ package, ∃ e ∈ examples (examplePage s) package, e.code = String.ofList (dedent s)) :=
  ⟨unescapeTemplate_eq, unescape_encode s, exists_example_of_code s⟩

/-- Code with every mark in it. -/
def markedCode : List Char := "tag\x60$\x7bsize\x7d\\n\x60 + '\\\\'".toList

theorem template_decoded_marks :
    dedent markedCode ≠ [] ∧ unescapeTemplate (encodeTemplate markedCode) = markedCode ∧
      ∃ e ∈ examples (examplePage markedCode) "@/components/ui", e.code = String.ofList (dedent markedCode) := by
  have hcode : dedent markedCode ≠ [] := by decide +kernel
  obtain ⟨-, hback, hlisted⟩ := template_decoded markedCode
  exact ⟨hcode, hback, hlisted hcode "@/components/ui"⟩

end UiCatalog.Demo
