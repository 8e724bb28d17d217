import UiCatalog.Proofs.Matching
import UiCatalog.Proofs.VariantText

/-!
# Style configurations in a source

Bindings of style configurations with any texts between and around them that do not name the call. The search
finds each binding at its start: nowhere else is there an equals sign with the start of a call behind it, and
what stands before the sign has only one place to start.
-/
namespace UiCatalog.VariantConfig

open Text Pattern Code

/-! ## Layouts -/

def keywords : List (List Char) := ["const".toList, "let".toList, "var".toList]

/-- A name as it can be bound. -/
def IsIdentifier (name : List Char) : Prop :=
  ∃ c cs, isIdentifierStart c = true ∧ (∀ d ∈ cs, isIdentifierPart d = true) ∧ name = c :: cs

/-- A binding up to its equals sign. -/
def HeadText (name t : List Char) : Prop :=
  ∃ keyword w w', keyword ∈ keywords ∧ IsSpace w ∧ w ≠ [] ∧ IsSpace w' ∧ t = keyword ++ (w ++ (name ++ w'))

/-- What follows the equals sign, up to the bracket of the call. -/
def CalleeText (t : List Char) : Prop :=
  ∃ w w', IsSpace w ∧ IsSpace w' ∧ t = w ++ ("cva".toList ++ (w' ++ ['(']))

def BindingText (config : VariantConfig) (t : List Char) : Prop :=
  ∃ head callee arguments, HeadText config.name.toList head ∧ CalleeText callee ∧
    ArgumentsText config arguments ∧ t = head ++ '=' :: (callee ++ (arguments ++ [')']))

/-- A source with the given configurations, in order. -/
inductive SourceText : List VariantConfig → List Char → Prop
  | nil {t} : CvaFree t → SourceText [] t
  | cons {t binding rest config configs} : CvaFree t → BindingText config binding → SourceText configs rest →
      SourceText (config :: configs) (t ++ (binding ++ rest))

variable {config : VariantConfig} {name name' head head' callee t u rest xs ys a b : List Char} {c : Char}
  {p : Char → Bool}

lemma mem_keywords {keyword : List Char} :
    keyword ∈ keywords ↔ keyword = "const".toList ∨ keyword = "let".toList ∨ keyword = "var".toList := by
  simp only [keywords, List.mem_cons, List.not_mem_nil, or_false]

/-! ## Identifiers and blanks -/

lemma wordRanges_not_blank : ∀ r ∈ wordRanges, ∀ s ∈ blankRanges, r.2 < s.1 ∨ s.2 < r.1 := by
  decide +kernel

lemma not_blank_of_ascii : ∀ n < 0x80, isIdentifierPart (Char.ofNat n) = true → isBlank (Char.ofNat n) = false := by
  decide +kernel

lemma not_blank_of_isIdentifierPart (h : isIdentifierPart c = true) : isBlank c = false := by
  by_cases hascii : c.toNat < 0x80
  · exact forall_ascii (p := fun c => isIdentifierPart c = true → isBlank c = false) not_blank_of_ascii hascii h
  · have hdollar : c ≠ '$' := by
      rintro rfl
      exact hascii (by decide)
    rw [isIdentifierPart, isWord, if_neg hascii, beq_eq_false_iff_ne.mpr hdollar, Bool.or_false] at h
    by_contra hb
    rw [Bool.not_eq_false] at hb
    obtain ⟨r, hr, hcr⟩ := List.any_eq_true.mp h
    obtain ⟨s, hs, hcs⟩ := List.any_eq_true.mp hb
    simp only [Bool.and_eq_true, decide_eq_true_eq] at hcr hcs
    have hapart := wordRanges_not_blank r hr s hs
    omega

lemma isIdentifierPart_of_start (h : isIdentifierStart c = true) : isIdentifierPart c = true := by
  simp only [isIdentifierStart, Bool.or_eq_true, beq_iff_eq] at h
  obtain (h | rfl) | rfl := h
  · have hascii : c.toNat < 0x80 := by
      simp only [Char.isAlpha, Char.isUpper, Char.isLower, Bool.or_eq_true, Bool.and_eq_true, decide_eq_true_eq,
        UInt32.le_iff_toNat_le, ge_iff_le] at h
      simp at h
      have : c.toNat = c.val.toNat := rfl
      omega
    simp [isIdentifierPart, isWord, hascii, Char.isAlphanum, h]
  · decide
  · decide

lemma IsIdentifier.parts (h : IsIdentifier name) : name ≠ [] ∧ ∀ c ∈ name, isIdentifierPart c = true := by
  obtain ⟨c, cs, hc, hcs, rfl⟩ := h
  refine ⟨List.cons_ne_nil c cs, ?_⟩
  rw [List.forall_mem_cons]
  exact ⟨isIdentifierPart_of_start hc, hcs⟩

lemma IsIdentifier.not_blank (h : IsIdentifier name) : ∀ c ∈ name, isBlank c = false := fun c hc =>
  not_blank_of_isIdentifierPart (h.parts.2 c hc)

lemma not_part_of_isSpace (hw : IsSpace t) : ∀ c ∈ t, isIdentifierPart c = false := by
  intro c hc
  by_contra hpart
  have hblank : isBlank c = false := not_blank_of_isIdentifierPart (by simpa using hpart)
  exact absurd (hw c hc) (by simp [hblank])

/-! ## The one place where a binding starts -/

/-- A text ends in only one longest run of characters of a class. -/
lemma append_cancel_run (hxs : ∀ c ∈ xs, p c = true) (hys : ∀ c ∈ ys, p c = true)
    (ha : ∀ c ∈ a.getLast?, p c = false) (hb : ∀ c ∈ b.getLast?, p c = false) (h : a ++ xs = b ++ ys) :
    a = b ∧ xs = ys := by
  have hcut {l zs : List Char} (hzs : ∀ c ∈ zs, p c = true) (hl : ∀ c ∈ l.getLast?, p c = false) :
      (l ++ zs).rdropWhile p = l := by
    have hrev : ∀ c ∈ zs.reverse, p c = true := fun c hc => hzs c (List.mem_reverse.mp hc)
    rw [List.rdropWhile, List.reverse_append, List.dropWhile_append_of_pos hrev]
    refine List.rdropWhile_eq_self_iff.mpr fun hne => ?_
    simp [hl _ (List.getLast?_eq_some_getLast hne)]
  have hab : a = b := by rw [← hcut hxs ha, ← hcut hys hb, h]
  subst hab
  exact ⟨rfl, List.append_cancel_left h⟩

/-- What stands before the first occurrence of a character. -/
lemma append_cons_cancel (ha : c ∉ a) (hb : c ∉ b) (h : a ++ c :: xs = b ++ c :: ys) : a = b := by
  rw [← takeWhile_append_cons ha xs, ← takeWhile_append_cons hb ys, h]

/-- The last character of a text that does not end empty is one of its end. -/
lemma last_of_append (hne : ys ≠ []) (hys : ∀ c ∈ ys, p c = false) : ∀ c ∈ (xs ++ ys).getLast?, p c = false := by
  intro c hc
  rw [List.getLast?_append_of_ne_nil xs hne] at hc
  exact hys c (List.mem_of_getLast? hc)

lemma keyword_cases : ∀ keyword ∈ keywords,
    keyword ≠ [] ∧ (∀ c ∈ keyword, isBlank c = false ∧ c ≠ '=') ∧ ∀ k ∈ keywords, k <:+ keyword → k = keyword := by
  decide

lemma HeadText.no_equals (h : HeadText name head) (hn : IsIdentifier name) : '=' ∉ head := by
  obtain ⟨keyword, w, w', hk, hw, -, hw', rfl⟩ := h
  have hpart : isIdentifierPart '=' = false := by decide
  simp only [List.mem_append, not_or]
  refine ⟨fun hmem => ((keyword_cases keyword hk).2.1 _ hmem).2 rfl, not_mem_of_isSpace hw (by decide),
    fun hmem => ?_, not_mem_of_isSpace hw' (by decide)⟩
  exact absurd (hn.parts.2 _ hmem) (by simp [hpart])

/-- A head does not end in another head. -/
lemma head_unique (h : HeadText name head) (hn : IsIdentifier name) (h' : HeadText name' (b ++ head))
    (hn' : IsIdentifier name') : b = [] := by
  obtain ⟨k, w, v, hk, hw, hwne, hv, rfl⟩ := h
  obtain ⟨k', w', v', hk', hw', hwne', hv', heq⟩ := h'
  have hend : (b ++ k ++ w ++ name) ++ v = (k' ++ w' ++ name') ++ v' := by simpa using heq
  -- The white space behind the names, the names, and the white space before them go one after another.
  obtain ⟨hend, -⟩ := append_cancel_run hv hv' (last_of_append hn.parts.1 hn.not_blank)
    (last_of_append hn'.parts.1 hn'.not_blank) hend
  obtain ⟨hend, -⟩ := append_cancel_run hn.parts.2 hn'.parts.2 (last_of_append hwne (not_part_of_isSpace hw))
    (last_of_append hwne' (not_part_of_isSpace hw')) hend
  obtain ⟨hne, hchars, -⟩ := keyword_cases k hk
  obtain ⟨-, hchars', hsuffix⟩ := keyword_cases k' hk'
  have hlast' : ∀ c ∈ k'.getLast?, isBlank c = false := fun c hc => (hchars' c (List.mem_of_getLast? hc)).1
  obtain ⟨hend, -⟩ := append_cancel_run hw hw' (last_of_append hne fun c hc => (hchars c hc).1) hlast' hend
  have hsame : k = k' := hsuffix k hk ⟨b, hend⟩
  rw [hsame] at hend
  exact List.append_left_eq_self.mp hend

/-! ## Texts in which no binding starts -/

/-- Behind no equals sign of `t` stands the start of a call, when `rest` follows `t`. -/
def Silent (t rest : List Char) : Prop :=
  ∀ a b callee, t = a ++ '=' :: b → CalleeText callee → ¬ callee <+: b ++ rest

lemma spells_bindingKeyword : Spells bindingKeyword xs ↔ xs ∈ keywords := by
  simp [bindingKeyword, keywords]

lemma spells_blanks : Spells blanks xs ↔ IsSpace xs := Iff.rfl

lemma spells_gap (h : Spells gap xs) : IsSpace xs ∧ xs ≠ [] := by
  obtain ⟨_, cs, ⟨c, hc, rfl⟩, hcs, rfl⟩ := h
  exact ⟨List.forall_mem_cons.mpr ⟨hc, hcs⟩, List.cons_ne_nil c cs⟩

lemma spells_identifier (h : Spells identifier xs) : IsIdentifier xs := by
  obtain ⟨_, cs, ⟨c, hc, rfl⟩, hcs, rfl⟩ := h
  exact ⟨c, cs, hc, hcs, rfl⟩

lemma spells_bindingPattern (h : Spells bindingPattern xs) :
    ∃ name head callee, IsIdentifier name ∧ HeadText name head ∧ CalleeText callee ∧ xs = head ++ '=' :: callee := by
  simp only [bindingPattern, spells_append, spells_group, spells_blanks, spells_char, spells_text,
    spells_bindingKeyword] at h
  obtain ⟨_, _, ⟨_, w₄, ⟨_, _, ⟨_, w₃, ⟨_, _, ⟨_, w₂, ⟨_, name, ⟨keyword, w₁, hk, hgap, rfl⟩, hname, rfl⟩, hw₂, rfl⟩,
    rfl, rfl⟩, hw₃, rfl⟩, rfl, rfl⟩, hw₄, rfl⟩, rfl, rfl⟩ := h
  obtain ⟨hw₁, hne⟩ := spells_gap hgap
  refine ⟨name, _, _, spells_identifier hname, ⟨keyword, w₁, w₂, hk, hw₁, hne, hw₂, rfl⟩, ⟨w₃, w₄, hw₃, hw₄, rfl⟩, ?_⟩
  simp

/-- There is no match where no head of a binding with the start of a call stands. -/
lemma matchAt?_bindingPattern_eq_none {s : List Char} {before : Option Char} {offset : ℕ}
    (h : ∀ name head callee after, IsIdentifier name → HeadText name head → CalleeText callee →
      s ≠ head ++ '=' :: callee ++ after) : matchAt? bindingPattern before offset s = none := by
  refine Option.eq_none_iff_forall_ne_some.2 fun found hfound => ?_
  obtain ⟨xs, after, hspells, hs⟩ := exists_spells_of_matchAt? hfound
  obtain ⟨name, head, callee, hn, hhead, hcallee, rfl⟩ := spells_bindingPattern hspells
  exact h name head callee after hn hhead hcallee hs

/-- No binding starts in a silent text that ends the source or is followed by a binding. -/
lemma quiet_of_silent (h : Silent t rest) (hrest : rest = [] ∨ ∃ name head u, IsIdentifier name ∧
    HeadText name head ∧ rest = head ++ '=' :: u) : Quiet bindingPattern t rest := by
  intro a b before offset ht hb
  refine matchAt?_bindingPattern_eq_none fun name' head' callee after hn' hhead' hcallee hxs => ?_
  rw [List.append_assoc, List.cons_append] at hxs
  have hbehind (y : List Char) (hy : head' = b ++ y) (hrestEq : rest = y ++ '=' :: (callee ++ after)) : False := by
    obtain rfl | ⟨name, head, u, hn, hhead, rfl⟩ := hrest
    · simp at hrestEq
    · have hno : '=' ∉ y := fun hmem => hhead'.no_equals hn' (by simp [hy, hmem])
      have hsame : head = y := append_cons_cancel (hhead.no_equals hn) hno hrestEq
      rw [hy, ← hsame] at hhead'
      exact hb (head_unique hhead hn hhead' hn')
  -- The equals sign of the match stands behind `b`, or in `b`, which is silent.
  rcases List.append_eq_append_iff.mp hxs with ⟨y, hy, hrestEq⟩ | ⟨y, hy, hrestEq⟩
  · exact hbehind y hy hrestEq
  · cases y with
    | nil => exact hbehind [] (by simpa using hy.symm) hrestEq.symm
    | cons c y =>
      rw [List.cons_append, List.cons.injEq] at hrestEq
      obtain ⟨rfl, hrestEq⟩ := hrestEq
      exact h (a ++ head') y callee (by rw [ht, hy, List.append_assoc]) hcallee ⟨after, hrestEq⟩

/-! ## Silence -/

/-- Silent whatever follows. -/
def Mute (t : List Char) : Prop := ∀ rest, Silent t rest

lemma silent_append (ht : Silent t (u ++ rest)) (hu : Silent u rest) : Silent (t ++ u) rest := by
  intro a b callee heq hcallee hpre
  rcases List.append_eq_append_iff.mp heq with ⟨y, -, hy⟩ | ⟨y, hy, hb⟩
  · exact hu y b callee hy hcallee hpre
  · cases y with
    | nil => exact hu [] b callee hb.symm hcallee hpre
    | cons c y =>
      rw [List.cons_append, List.cons.injEq] at hb
      obtain ⟨rfl, rfl⟩ := hb
      exact ht a y callee hy hcallee (by rwa [← List.append_assoc])

lemma Mute.append (ht : Mute t) (hu : Mute u) : Mute (t ++ u) := fun rest => silent_append (ht _) (hu rest)

lemma mute_of_not_mem (h : '=' ∉ t) : Mute t := by
  rintro rest a b callee rfl
  simp at h

lemma mute_of_isSpace (hw : IsSpace t) : Mute t := mute_of_not_mem (not_mem_of_isSpace hw (by decide))

lemma CvaFree.of_append (h : CvaFree (a ++ t)) : CvaFree t := fun hin =>
  h (hin.trans (List.suffix_append a t).isInfix)

/-- The start of a call behind a text that does not name it reaches beyond that text. -/
lemma reaches_of_cvaFree (hcallee : CalleeText callee) (hpre : callee <+: b ++ rest) (hfree : CvaFree b) :
    ∃ w y w' r, IsSpace w ∧ IsSpace w' ∧ y ≠ [] ∧ w ++ "cva".toList = b ++ y ∧ rest = y ++ (w' ++ '(' :: r) := by
  obtain ⟨w, w', hw, hw', rfl⟩ := hcallee
  obtain ⟨r, hr⟩ := hpre
  have heq : (w ++ "cva".toList) ++ (w' ++ '(' :: r) = b ++ rest := by simpa using hr
  rcases List.append_eq_append_iff.mp heq with ⟨y, rfl, -⟩ | ⟨y, hy, hrest⟩
  · exact absurd ⟨w, y, rfl⟩ hfree
  · refine ⟨w, y, w', r, hw, hw', ?_, hy, hrest⟩
    rintro rfl
    rw [List.append_nil] at hy
    exact hfree ⟨w, [], by rw [List.append_nil, hy]⟩

lemma mute_literal (h : IsLiteral t) (hfree : CvaFree t) : Mute t := by
  intro rest a b callee heq hcallee hpre
  obtain ⟨quote, body, hq, -, rfl⟩ := h
  have hquote : quote ≠ '=' ∧ quote ∉ "cva".toList := by
    rcases isQuote_iff.mp hq with rfl | rfl | rfl <;> decide
  rw [heq, List.append_cons] at hfree
  obtain ⟨w, y, -, -, hw, -, -, hy, -⟩ := reaches_of_cvaFree hcallee hpre hfree.of_append
  have hmem : quote ∈ b := by
    have hlast := congrArg List.getLast? heq
    rw [← List.cons_append, List.getLast?_concat] at hlast
    cases b with
    | nil => simp [hquote.1] at hlast
    | cons c b =>
      rw [List.getLast?_append_of_ne_nil _ (by simp), List.getLast?_cons_cons] at hlast
      exact List.mem_of_getLast? hlast.symm
  have hin : quote ∈ w ++ "cva".toList := hy ▸ List.mem_append_left y hmem
  rcases List.mem_append.mp hin with hin | hin
  · exact absurd (hw _ hin) (by simp [not_blank_of_quote hq])
  · exact hquote.2 hin

lemma cvaFree_of_quotes {value : List Char} (h : Quotes CvaFree value t) : CvaFree t := by
  obtain ⟨quote, hq, -, -, hfree, rfl⟩ := h
  have hquote : quote ≠ 'c' ∧ quote ≠ 'a' := by
    rcases isQuote_iff.mp hq with rfl | rfl | rfl <;> decide
  intro hin
  rcases List.infix_cons_iff.mp hin with hstart | hin
  · exact hquote.1 (List.cons_prefix_cons.mp hstart).1.symm
  · rcases List.infix_concat_iff.mp hin with hend | hin
    · have hlast := List.IsSuffix.getLast hend (by simp)
      simp at hlast
      exact hquote.2 hlast.symm
    · exact hfree hin

/-- A keyword does not go on with the rest of the start of a call. -/
lemma keyword_apart {keyword z y w r u : List Char} (hk : keyword ∈ keywords)
    (hw : IsSpace w) (hy : y ≠ []) (hz : z ++ y = "cva".toList) : y ++ (w ++ '(' :: r) ≠ keyword ++ u := by
  have hr : isBlank 'r' = false := by decide
  intro h
  replace hk := mem_keywords.mp hk
  rcases z with _ | ⟨c₁, _ | ⟨c₂, _ | ⟨c₃, z⟩⟩⟩ <;> simp at hz
  · subst hz
    rcases hk with rfl | rfl | rfl <;> simp at h
  · obtain ⟨-, rfl⟩ := hz
    rcases hk with rfl | rfl | rfl <;> simp at h
    cases w with
    | nil => simp at h
    | cons c w => exact absurd (hw c (.head _)) (by simp [(List.cons.inj h).1, hr])
  · obtain ⟨-, -, rfl⟩ := hz
    rcases hk with rfl | rfl | rfl <;> simp at h
  · exact hy hz.2.2.2.2

/-- A text that does not name the call is silent where it ends the source or a binding follows. -/
lemma silent_of_cvaFree (hfree : CvaFree t) (hrest : rest = [] ∨ ∃ name head u, HeadText name head ∧ rest = head ++ u) :
    Silent t rest := by
  rintro a b callee rfl hcallee hpre
  rw [List.append_cons] at hfree
  obtain ⟨w, y, w', r, hw, hw', hy, hreach, rfl⟩ := reaches_of_cvaFree hcallee hpre hfree.of_append
  obtain hnil | ⟨name, head, u, ⟨keyword, g, g', hk, -, -, -, rfl⟩, hrest⟩ := hrest
  · exact hy (List.append_eq_nil_iff.mp hnil).1
  · rw [List.append_assoc] at hrest
    rcases List.append_eq_append_iff.mp hreach with ⟨z, -, hz⟩ | ⟨z, rfl, rfl⟩
    · exact keyword_apart hk hw' hy hz.symm hrest
    · cases z with
      | nil => exact keyword_apart (z := []) hk hw' hy rfl hrest
      | cons c z =>
        have hc : isBlank c = true := hw c (by simp)
        obtain ⟨hne, hchars, -⟩ := keyword_cases keyword hk
        obtain ⟨d, ds, rfl⟩ := List.exists_cons_of_ne_nil hne
        have hd := (hchars d (.head _)).1
        rw [← (List.cons.inj hrest).1, hc] at hd
        exact absurd hd (by simp)

lemma mute_join {pieces : List (List Char)} (h : ∀ t ∈ pieces, Mute t) : Mute (join [','] pieces) := by
  induction pieces with
  | nil => exact mute_of_not_mem (by simp [join])
  | cons t pieces ih =>
    cases pieces with
    | nil => exact h t (.head _)
    | cons u pieces =>
      rw [join_cons _ _ (List.cons_ne_nil u pieces)]
      exact (h t (.head _)).append ((mute_of_not_mem (by decide)).append (ih fun t ht => h t (.tail _ ht)))

lemma mute_padded {kind : List Char → Prop} (h : Padded kind t) (hkind : ∀ u, kind u → Mute u) : Mute t := by
  obtain ⟨w, core, w', hw, hcore, hw', rfl⟩ := h
  exact (mute_of_isSpace hw).append ((hkind core hcore).append (mute_of_isSpace hw'))

lemma mute_quotes {value : List Char} (h : Quotes CvaFree value t) : Mute t :=
  mute_literal (isLiteral_of_quotes h) (cvaFree_of_quotes h)

lemma mute_listText {kinds : List (List Char → Prop)} (h : ListText kinds t)
    (hkinds : ∀ kind ∈ kinds, ∀ u, kind u → Mute u) : Mute t := by
  obtain ⟨pieces, last, hitems, hlast, rfl⟩ := h
  refine mute_join fun u hu => ?_
  rcases List.mem_append.mp hu with hu | hu
  · obtain ⟨kind, hkind, hku⟩ := exists_kind_of_mem hitems hu
    exact hkinds kind hkind u hku
  · obtain rfl | ⟨w, hw, rfl⟩ := hlast
    · simp at hu
    · rw [List.mem_singleton.mp hu]
      exact mute_of_isSpace hw

lemma mute_entryText {entry : String × (List Char → Prop)} (h : EntryText CvaFree entry t)
    (hvalue : ∀ v, entry.2 v → Mute v) : Mute t := by
  obtain ⟨w, key, w', v, hw, hkey, hw', hv, rfl⟩ := h
  have hk : Mute key := by
    obtain ⟨-, hbare, rfl⟩ | hquotes := hkey
    · exact mute_of_not_mem fun hmem => (bare_iff.mp (hbare _ hmem)).2.2.2.2.2 rfl
    · exact mute_quotes hquotes
  have hcolon : Mute [':'] := mute_of_not_mem (by decide)
  exact (mute_of_isSpace hw).append (hk.append ((mute_of_isSpace hw').append (hcolon.append (hvalue v hv))))

lemma mute_objectText {entries : List (String × (List Char → Prop))} (h : ObjectText CvaFree entries t)
    (hvalue : ∀ e ∈ entries, ∀ v, e.2 v → Mute v) : Mute t := by
  refine mute_padded h ?_
  rintro _ ⟨body, hbody, rfl⟩
  have hinside : Mute body := mute_listText hbody fun kind hkind u hu => by
    obtain ⟨e, he, rfl⟩ := List.mem_map.mp hkind
    exact mute_entryText hu (hvalue e he)
  have hopen : Mute ['\x7b'] := mute_of_not_mem (by decide)
  exact hopen.append (hinside.append (mute_of_not_mem (by decide)))

lemma mute_argumentsText (h : ArgumentsText config t) : Mute t := by
  have hoptions {options : List String} {u : List Char} (hu : OptionsText options u) : Mute u :=
    mute_objectText hu fun e he v hv => by
      obtain ⟨option, -, rfl⟩ := List.mem_map.mp he
      exact mute_padded hv fun u hu => mute_literal hu.1 hu.2
  have hcategories {variants : OrderedMap (List String)} {u : List Char} (hu : CategoriesText variants u) : Mute u :=
    mute_objectText hu fun e he v hv => by
      obtain ⟨category, -, rfl⟩ := List.mem_map.mp he
      exact hoptions hv
  have hdefaults {defaults : OrderedMap String} {u : List Char} (hu : DefaultsText defaults u) : Mute u :=
    mute_objectText hu fun e he v hv => by
      obtain ⟨default, -, rfl⟩ := List.mem_map.mp he
      exact mute_padded hv fun u hu => mute_quotes hu
  refine mute_listText h fun kind hkind u hu => ?_
  simp only [List.mem_cons, List.not_mem_nil, or_false] at hkind
  rcases hkind with rfl | rfl
  · exact mute_padded hu fun u ⟨_, _, _, hquotes, _⟩ => mute_quotes hquotes
  · refine mute_objectText hu fun e he v hv => ?_
    simp only [List.mem_cons, List.not_mem_nil, or_false] at he
    rcases he with rfl | rfl
    · exact hcategories hv
    · exact hdefaults hv

end UiCatalog.VariantConfig
