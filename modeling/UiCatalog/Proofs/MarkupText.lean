import UiCatalog.Demo.Markup
import UiCatalog.Proofs.Sections

/-!
# Texts in markup

A text is written in markup with its special characters as entities and with inline tags anywhere. Reading it back takes
three passes, and none of them sees more than it should: no entity brings a bracket or a brace in, and the ampersand is
decoded last, so that what was written as an entity is not decoded twice. The text of a string expression stays as it is
as long as nothing in it looks like a tag or an entity.
-/
namespace UiCatalog.Demo

open Text Pattern Code VariantConfig

/-! ## Texts -/

/-- The characters with a meaning in markup. -/
def specials : List Char := ['<', '>', '"', '\'', '&']

/-- A character as it is written in markup. -/
def escape (c : Char) : List Char :=
  if c = '&' then "&amp;".toList
  else if c = '<' then "&lt;".toList
  else if c = '>' then "&gt;".toList
  else if c = '"' then "&quot;".toList
  else if c = '\'' then "&#39;".toList
  else [c]

/-- The inside of a tag that may stand in a cell: it has no angle brackets, no string stands directly behind a brace, it
ends neither the cell nor the row, and it is no section. -/
structure IsInlineTag (inside : List Char) : Prop where
  nonempty : inside ≠ []
  plain : ∀ c ∈ inside, c ≠ '<' ∧ c ≠ '>'
  unquoted : ∀ a w quote b, IsSpace w → isQuoteMark quote = true → inside ≠ a ++ '\x7b' :: (w ++ quote :: b)
  closes : inside ≠ "/td".toList ∧ inside ≠ "/tr".toList
  opens : ∀ rest, inside = "Section".toList ++ rest → ¬ WordEnds rest

/-- A text as markup: its characters one by one, with inline tags anywhere. A brace would start an expression. -/
inductive MarkupOf : List Char → List Char → Prop
  | nil : MarkupOf [] []
  | char {c t m} : c ≠ '\x7b' → MarkupOf t m → MarkupOf (c :: t) (escape c ++ m)
  | inline {inside t m} : IsInlineTag inside → MarkupOf t m → MarkupOf t ('<' :: (inside ++ '>' :: m))

/-- Nothing in the text looks like a tag. -/
def TagFree (t : List Char) : Prop := ∀ a b c, b ≠ [] → '>' ∉ b → t ≠ a ++ '<' :: (b ++ '>' :: c)

/-- Nothing in the text looks like one of the entities. -/
def EntityFree (t : List Char) : Prop := ∀ c ∈ specials, ¬ escape c <:+: t

/-- Braces around a quoted text, with white space on both sides of it. -/
def expression (x : List Char) (quote : Char) (t y : List Char) : List Char :=
  '\x7b' :: (x ++ quote :: (t ++ quote :: (y ++ ['\x7d'])))

/-- A string expression with the text `t`, with nothing else around it. -/
def ExpressionOf (t m : List Char) : Prop :=
  ∃ quote w x y z, isQuoteMark quote = true ∧ quote ∉ t ∧ IsSpace w ∧ IsSpace x ∧ IsSpace y ∧ IsSpace z ∧
    m = w ++ (expression x quote t y ++ z)

variable {c d quote : Char} {special t m u w x y z inside rest : List Char} {before : Option Char} {offset : ℕ}

/-! ## Entities -/

lemma escape_of_not_special (h : c ∉ specials) : escape c = [c] := by
  simp only [specials, List.mem_cons, List.not_mem_nil, or_false, not_or] at h
  simp only [escape, h, if_false]

lemma exists_entity (h : c ∈ specials) :
    ∃ name, ';' ∉ name ∧ '&' ∉ name ∧ escape c = '&' :: (name ++ [';']) := by
  have hall : ∀ c ∈ specials, ∃ name ∈ ["lt".toList, "gt".toList, "quot".toList, "#39".toList, "amp".toList],
      ';' ∉ name ∧ '&' ∉ name ∧ escape c = '&' :: (name ++ [';']) := by decide
  obtain ⟨name, -, hname⟩ := hall c h
  exact ⟨name, hname⟩

lemma escape_injective : ∀ c ∈ specials, ∀ d ∈ specials, escape c = escape d → c = d := by decide

lemma not_special_of_mem_escape (h : d ∈ escape c) : d = c ∨ d ∉ ['<', '>', '"', '\'', '\x7b'] := by
  by_cases hc : c ∈ specials
  · have hall : ∀ c ∈ specials, ∀ d ∈ escape c, d ∉ ['<', '>', '"', '\'', '\x7b'] := by decide
    exact .inr (hall c hc d h)
  · rw [escape_of_not_special hc] at h
    exact .inl (List.mem_singleton.1 h)

lemma bracket_not_mem_escape : '<' ∉ escape c := by
  intro hmem
  rcases not_special_of_mem_escape hmem with rfl | hnot
  · exact absurd hmem (by decide)
  · exact hnot (.head _)

/-- An entity stands for one character only. -/
lemma not_entity_start (hc : c ∈ specials) (hd : d ∈ specials) (hne : c ≠ d) (rest : List Char) :
    ¬ escape c <+: escape d ++ rest := by
  obtain ⟨name, hname, -, hescape⟩ := exists_entity hc
  obtain ⟨name', hname', -, hescape'⟩ := exists_entity hd
  rw [hescape, hescape']
  rintro ⟨u, hu⟩
  have hsame : name ++ ';' :: u = name' ++ ';' :: rest := by simpa using hu
  refine hne (escape_injective c hc d hd ?_)
  rw [hescape, hescape', append_cons_cancel hname hname' hsame]

/-- The characters of `special` as entities, and no others. -/
def escapeSome (special : List Char) (c : Char) : List Char := if c ∈ special then escape c else [c]

/-- Decoding one entity leaves those of the others: as long as the ampersand is still to be decoded, each ampersand of
the text starts an entity. -/
lemma replace_escapeSome (hc : c ∈ specials) (hspecial : ∀ d ∈ special, d ∈ specials) (hnot : c ∉ special)
    (hamp : '&' ∈ c :: special) (t : List Char) :
    replace (escape c) [c] (t.flatMap (escapeSome (c :: special))) = t.flatMap (escapeSome special) := by
  obtain ⟨name, -, -, hname⟩ := exists_entity hc
  have hne : escape c ≠ [] := by simp [hname]
  have hhead {e : Char} (he : e ≠ '&') : (escape c).head? ≠ some e := by simpa [hname] using Ne.symm he
  induction t with
  | nil => rfl
  | cons d t ih =>
    rw [List.flatMap_cons, List.flatMap_cons]
    by_cases hd : d = c
    · subst hd
      rw [escapeSome, if_pos (.head _), replace_self_append hne, ih, escapeSome, if_neg hnot]
    · have hsame : escapeSome (c :: special) d = escapeSome special d := by simp [escapeSome, hd]
      rw [hsame, escapeSome]
      split_ifs with hmem
      · obtain ⟨name', -, hamp', hname'⟩ := exists_entity (hspecial d hmem)
        have hstart := not_entity_start hc (hspecial d hmem) (Ne.symm hd) (t.flatMap (escapeSome (c :: special)))
        rw [hname', List.cons_append] at hstart ⊢
        rw [replace_other_start hstart, replace_append_of_not_mem hne, ih, List.cons_append]
        intro e he
        rcases List.mem_append.1 he with he | he
        · exact hhead (ne_of_mem_of_not_mem he hamp')
        · exact hhead (by rw [List.mem_singleton.1 he]; decide)
      · have hother : d ≠ '&' := by
          rintro rfl
          exact (List.mem_cons.1 hamp).elim hd hmem
        rw [List.singleton_append, replace_other_head (hhead hother) hne, ih, List.singleton_append]

lemma decodeEntities_eq (s : List Char) : decodeEntities s = replace (escape '&') ['&'] (replace (escape '\'') ['\'']
    (replace (escape '"') ['"'] (replace (escape '>') ['>'] (replace (escape '<') ['<'] s)))) := rfl

/-- What is written with entities is decoded once. -/
theorem decodeEntities_escape (t : List Char) : decodeEntities (t.flatMap escape) = t := by
  have hall : t.flatMap escape = t.flatMap (escapeSome specials) := by
    refine List.flatMap_congr fun c _ => ?_
    rw [escapeSome]
    split_ifs with hc
    · rfl
    · exact escape_of_not_special hc
  have hsingle : escapeSome [] = fun c => [c] := by
    funext c
    exact if_neg List.not_mem_nil
  rw [decodeEntities_eq, hall, specials, replace_escapeSome, replace_escapeSome, replace_escapeSome, replace_escapeSome,
    replace_escapeSome, hsingle, List.flatMap_singleton']
  all_goals decide

/-! ## Tags -/

lemma startsIn_tag : StartsIn (· == '<') tag := (startsIn_one.append _).append _

lemma startsIn_stringExpression : StartsIn (· == '\x7b') stringExpression :=
  (((startsIn_one.append _).append _).append _).append _

lemma matchAt?_tag (hne : inside ≠ []) (hinside : '>' ∉ inside) (before : Option Char) (offset : ℕ)
    (rest : List Char) : ∃ found, matchAt? tag before offset ('<' :: (inside ++ ['>']) ++ rest) = some found ∧
      found.stop = offset + ('<' :: (inside ++ ['>'])).length := by
  have hplain : ∀ c ∈ inside, (c != '>') = true := fun c hc => by simpa using ne_of_mem_of_not_mem hc hinside
  have htext : '<' :: (inside ++ ['>']) ++ rest = '<' :: (inside ++ '>' :: rest) := by simp
  rw [matchAt?, tag, run_append, run_append, run_char htext]
  refine ⟨_, run_many1 inside _ rfl hne hplain (fun c hc => Option.some.inj hc ▸ rfl) (run_char rfl), ?_⟩
  simp [Match.stop, Point.over]
  omega

/-- Without its tags, markup is the text with its special characters as entities. -/
lemma MarkupOf.strip (h : MarkupOf t m) (before : Option Char) (offset : ℕ) :
    replaceAllFrom tag (fun _ => []) 0 before offset m = t.flatMap escape := by
  induction h generalizing before offset with
  | nil => rw [replaceAllFrom_nil, List.flatMap_nil]
  | @char c t m _ _ ih =>
    have hquiet : Quiet tag (escape c) m := quiet_of_not_mem startsIn_tag bracket_not_mem_escape m
    rw [replaceAllFrom_of_quiet hquiet, ih, List.flatMap_cons]
  | @inline inside t m hinside _ ih =>
    obtain ⟨found, hfound, hstop⟩ :=
      matchAt?_tag hinside.nonempty (fun hmem => (hinside.plain _ hmem).2 rfl) before offset m
    have htext : '<' :: (inside ++ '>' :: m) = '<' :: (inside ++ ['>']) ++ m := by simp
    rw [htext, replaceAllFrom_of_match (List.cons_ne_nil _ _) hfound hstop, List.nil_append, ih]

/-! ## String expressions -/

lemma spells_anyTag : Spells tag u ↔ ∃ inside, inside ≠ [] ∧ '>' ∉ inside ∧ u = '<' :: (inside ++ ['>']) := by
  have hplain {w : List Char} : Spells (many1 (· != '>')) w ↔ w ≠ [] ∧ '>' ∉ w := by
    simp only [spells_many1, bne_iff_ne]
    exact and_congr_right fun _ => ⟨fun h hmem => h _ hmem rfl, fun h c hc => ne_of_mem_of_not_mem hc h⟩
  simp only [tag, spells_append, spells_char, hplain]
  constructor
  · rintro ⟨_, _, ⟨_, inside, rfl, hinside, rfl⟩, rfl, rfl⟩
    exact ⟨inside, hinside.1, hinside.2, rfl⟩
  · rintro ⟨inside, hne, hinside, rfl⟩
    exact ⟨_, _, ⟨_, inside, rfl, ⟨hne, hinside⟩, rfl⟩, rfl, rfl⟩

lemma quiet_tag (h : TagFree t) (hrest : '>' ∉ rest) : Quiet tag t rest := by
  rintro a b before offset rfl hb
  refine Option.eq_none_iff_forall_ne_some.2 fun found hfound => ?_
  obtain ⟨u, v, hu, htext⟩ := exists_spells_of_matchAt? hfound
  obtain ⟨inside, hne, hinside, rfl⟩ := spells_anyTag.1 hu
  rcases List.append_eq_append_iff.1 htext with ⟨z, hz, hrest'⟩ | ⟨z, rfl, -⟩
  · -- the closing bracket of the tag would stand behind the text
    obtain rfl | ⟨z, d, rfl⟩ := List.eq_nil_or_concat z
    · exact h a inside [] hne hinside (by simpa using congrArg (a ++ ·) hz.symm)
    · rw [List.concat_eq_append, ← List.cons_append, ← List.append_assoc] at hz
      obtain rfl : '>' = d := (List.cons.inj (List.append_inj' hz rfl).2).1
      exact hrest (by simp [hrest'])
  · exact h a inside z hne hinside (by simp)

/-- White space behind a text makes up no entity. -/
lemma EntityFree.append_space (h : EntityFree t) (hw : IsSpace w) : EntityFree (t ++ w) := by
  rintro c hc ⟨a, b, hab⟩
  obtain ⟨name, -, -, hname⟩ := exists_entity hc
  have hlast : escape c = '&' :: name ++ [';'] := hname
  rcases List.append_eq_append_iff.1 hab with ⟨z, hz, -⟩ | ⟨z, hz, hspace⟩
  · exact h c hc ⟨a, z, hz.symm⟩
  · obtain rfl | ⟨z, d, rfl⟩ := List.eq_nil_or_concat z
    · exact h c hc ⟨a, [], by simpa using hz⟩
    · rw [List.concat_eq_append] at hz hspace
      rw [hlast, ← List.append_assoc, ← List.append_assoc] at hz
      obtain rfl : ';' = d := (List.cons.inj (List.append_inj' hz rfl).2).1
      exact absurd (hw ';' (by simp [hspace])) (by decide)

lemma decodeEntities_eq_self (h : EntityFree t) : decodeEntities t = t := by
  have hsame (c : Char) (hc : c ∈ specials) : replace (escape c) [c] t = t := replace_eq_self (h c hc)
  rw [decodeEntities_eq, hsame '<', hsame '>', hsame '"', hsame '\'', hsame '&'] <;> decide

lemma decodeEntities_space_append (hw : IsSpace w) (t : List Char) :
    decodeEntities (w ++ t) = w ++ decodeEntities t := by
  have hsame (c : Char) (hc : c ∈ specials) (t : List Char) :
      replace (escape c) [c] (w ++ t) = w ++ replace (escape c) [c] t := by
    obtain ⟨name, -, -, hname⟩ := exists_entity hc
    refine replace_append_of_not_mem (by simp [hname]) (fun d hd => ?_) t
    rw [hname, List.head?_cons, Ne, Option.some.injEq]
    rintro rfl
    exact absurd (hw _ hd) (by decide)
  rw [decodeEntities_eq, decodeEntities_eq, hsame '<', hsame '>', hsame '"', hsame '\'', hsame '&'] <;> decide

/-- A text in one of the three kinds of quotes. -/
def quotedString : Pattern := quotedTitle '"' 1 <|> quotedTitle '\'' 2 <|> quotedTitle '\x60' 3

/-- The text of a string expression is the group of its own kind of quotes. -/
lemma holds_quotedString :
    Holds quotedString (fun t u => ∃ quote, isQuoteMark quote = true ∧ quote ∉ t ∧ u = quote :: (t ++ [quote]))
      titleOf := by
  have hkind : (fun t u => ∃ quote, isQuoteMark quote = true ∧ quote ∉ t ∧ u = quote :: (t ++ [quote])) = fun t u =>
      Enclosing (char '"') (many (· != '"')) (char '"') t u ∨
        Enclosing (char '\'') (many (· != '\'')) (char '\'') t u ∨
          Enclosing (char '\x60') (many (· != '\x60')) (char '\x60') t u := by
    funext t u
    simp only [enclosing_quotes, isQuoteMark_iff, or_and_right, exists_or, exists_eq_left]
  have hstart (quote : Char) (index : ℕ) : StartsIn (· == quote) (quotedTitle quote index) := startsIn_one.append _
  have hrest : StartsIn (fun c => c == '\'' || c == '\x60') (quotedTitle '\'' 2 <|> quotedTitle '\x60' 3) :=
    ((hstart '\'' 2).mono fun c hc => by rw [hc]; rfl).orElse ((hstart _ 3).mono fun c hc => by rw [hc, Bool.or_true])
  rw [hkind]
  refine (holds_quotedTitle '"' 1 fun _ => rfl).orElse ((holds_quotedTitle '\'' 2 fun _ => rfl).orElse
    (holds_quotedTitle '\x60' 3 fun _ => rfl) (hstart _ 2) (hstart _ 3) fun c hc => ?_)
    (hstart _ 1) hrest fun c hc => ?_
  · rw [eq_of_beq hc]
    decide
  · rw [eq_of_beq hc]
    decide

lemma startsIn_quotedString : StartsIn isQuoteMark quotedString := by
  have hstart {quote : Char} (hquote : isQuoteMark quote = true) (index : ℕ) :
      StartsIn isQuoteMark (quotedTitle quote index) :=
    (startsIn_one.append _).mono fun c hc => by rwa [eq_of_beq hc]
  exact (hstart (by decide) 1).orElse ((hstart (by decide) 2).orElse (hstart (by decide) 3))

def bracedString : Pattern := char '\x7b' ++ (blanks ++ (quotedString ++ (blanks ++ char '\x7d')))

lemma matchAt?_stringExpression : matchAt? stringExpression = matchAt? bracedString := rfl

/-- A string expression starts with a brace and a quote mark. -/
lemma starts_of_stringExpression (h : matchAt? stringExpression before offset t = some found) :
    ∃ w quote rest, IsSpace w ∧ isQuoteMark quote = true ∧ t = '\x7b' :: (w ++ quote :: rest) := by
  rw [matchAt?_stringExpression] at h
  obtain ⟨q, hq, -⟩ := exists_reaches_of_matchAt? h
  obtain ⟨_, ⟨c, tail, ht, hc, rfl⟩, _, ⟨w, tail', hw, hspace, rfl⟩, m, hquoted, -⟩ := hq
  obtain ⟨quote, rest, hrest, hquote⟩ := startsIn_quotedString _ m hquoted
  obtain rfl := eq_of_beq hc
  refine ⟨w, quote, rest, hspace, hquote, ?_⟩
  rw [show t = _ from ht, show tail = _ from hw, show tail' = _ from hrest]

/-- In markup no string stands behind a brace: braces are only in tags. -/
lemma MarkupOf.unquoted (h : MarkupOf t m) (a : List Char) (hw : IsSpace w) (hquote : isQuoteMark quote = true)
    (rest : List Char) : m ≠ a ++ '\x7b' :: (w ++ quote :: rest) := by
  induction h generalizing a with
  | nil => simp
  | @char c t m hc _ ih =>
    intro htext
    have hbrace : '\x7b' ∉ escape c := fun hmem =>
      (not_special_of_mem_escape hmem).elim (fun hsame => hc hsame.symm) fun hnot => hnot (by simp)
    obtain ⟨a, rfl⟩ := exists_append_of_not_mem htext.symm hbrace
    rw [List.append_assoc, List.append_cancel_left_eq] at htext
    exact ih a htext
  | @inline inside t m hinside _ ih =>
    intro htext
    rcases List.cons_eq_append_iff.1 htext with ⟨-, hbrace⟩ | ⟨a, rfl, hinner⟩
    · exact absurd (List.cons.inj hbrace).1 (by decide)
    rcases List.append_eq_append_iff.1 hinner with ⟨z, rfl, hz⟩ | ⟨z, rfl, hz⟩
    · rcases List.cons_eq_append_iff.1 hz with ⟨-, hbracket⟩ | ⟨z, rfl, hbehind⟩
      · exact absurd (List.cons.inj hbracket).1 (by decide)
      · exact ih z hbehind
    · rcases List.cons_eq_append_iff.1 hz with ⟨-, hbracket⟩ | ⟨z, rfl, hbehind⟩
      · exact absurd (List.cons.inj hbracket).1 (by decide)
      · -- the quote mark stands before the end of the tag
        have hmark : '>' ∉ w ++ [quote] := by
          have hne : '>' ≠ quote := by rintro rfl; cases hquote
          simp [not_mem_of_isSpace hw (c := '>') (by decide), hne]
        obtain ⟨z, rfl⟩ := exists_append_of_not_mem (w := rest) (by simpa using hbehind.symm) hmark
        exact hinside.unquoted a w quote z hw hquote (by simp)

/-- Markup is read as the text that was written. -/
theorem plainText_of_markup (h : MarkupOf t m) : plainText m = squeeze t := by
  have hquiet : Quiet stringExpression m [] := by
    rintro a b before offset rfl -
    refine Option.eq_none_iff_forall_ne_some.2 fun found hfound => ?_
    obtain ⟨w, quote, rest, hw, hquote, hb⟩ := starts_of_stringExpression hfound
    rw [List.append_nil] at hb
    exact h.unquoted a hw hquote rest (congrArg (a ++ ·) hb)
  rw [plainText, replaceAll, replaceAll, replaceAllFrom_eq_self hquiet, h.strip, decodeEntities_escape]

/-- A string expression leads on in one way: blanks go up to the quotes, the text up to the next such quote. -/
lemma oneWay_bracedString : OneWay bracedString := by
  have hquoted : StartsIn (fun c => !isBlank c) quotedString :=
    startsIn_quotedString.mono fun c hc => by rw [not_blank_of_isQuoteMark hc]; rfl
  have hbrace : StartsIn (fun c => !isBlank c) (char '\x7d') :=
    startsIn_one.mono fun c hc => by rw [eq_of_beq hc]; decide
  exact oneWay_one.append (endsBefore_many.append (holds_quotedString.oneWay.append
    (endsBefore_many.append oneWay_one hbrace)) (hquoted.append _))

lemma exists_reaches_quotedString {p : Point} (hquote : isQuoteMark quote = true) (ht : quote ∉ t)
    (hp : p.rest = quote :: (t ++ [quote]) ++ rest) (hgroups : p.groups = []) : ∃ q, Reaches quotedString p q ∧
      q.rest = rest ∧ q.offset = p.offset + (t.length + 2) ∧ titleOf q.groups = some t := by
  obtain ⟨q, hq, hoffset, hvalue⟩ := holds_quotedString.leads p t _ rest ⟨quote, hquote, ht, rfl⟩ hp hgroups
  obtain ⟨u, -, hu, hover⟩ := hq.over
  have hlength : (quote :: (t ++ [quote])).length = u.length := by
    rw [hover] at hoffset
    exact (Nat.add_left_cancel hoffset).symm
  refine ⟨q, hq, (List.append_inj (hp.symm.trans hu) hlength).2.symm, ?_, hvalue⟩
  rw [hoffset]
  simp

lemma matchAt?_expression (hquote : isQuoteMark quote = true) (ht : quote ∉ t) (hx : IsSpace x) (hy : IsSpace y)
    (before : Option Char) (offset : ℕ) (rest : List Char) :
    ∃ found, matchAt? stringExpression before offset (expression x quote t y ++ rest) = some found ∧
      found.stop = offset + (expression x quote t y).length ∧ found.firstOf [1, 2, 3] = some t := by
  let start : Point := ⟨before, offset, expression x quote t y ++ rest, []⟩
  have htext : start.rest = '\x7b' :: x ++ (quote :: (t ++ [quote]) ++ (y ++ ['\x7d'] ++ rest)) := by
    simp [start, expression]
  obtain ⟨m, hm, hblanks⟩ : Reaches (char '\x7b' ++ blanks) start (start.over ('\x7b' :: x) _) :=
    reaches_of_spells (by simp) ⟨['\x7b'], x, spells_char.2 rfl, hx, rfl⟩ htext
  obtain ⟨q, hq, hrest, hoffset, hvalue⟩ :=
    exists_reaches_quotedString (p := start.over ('\x7b' :: x) _) hquote ht rfl rfl
  have hback : Reaches (blanks ++ char '\x7d') q (q.over (y ++ ['\x7d']) rest) :=
    reaches_of_spells (by simp) ⟨y, ['\x7d'], hy, spells_char.2 rfl, rfl⟩ hrest
  rw [matchAt?_stringExpression]
  refine ⟨_, matchAt?_of_oneWay oneWay_bracedString ⟨m, hm, _, hblanks, q, hq, hback⟩, ?_, hvalue⟩
  change q.offset + (y ++ ['\x7d']).length = _
  rw [hoffset]
  simp [start, expression]
  omega

/-- The quotes and braces of a string expression go. -/
lemma unwrap_expression (hquote : isQuoteMark quote = true) (ht : quote ∉ t) (hw : IsSpace w) (hx : IsSpace x)
    (hy : IsSpace y) (hz : IsSpace z) : stringExpression.replaceAll (fun m => (m.firstOf [1, 2, 3]).getD [])
      (w ++ (expression x quote t y ++ z)) = w ++ (t ++ z) := by
  have hquiet {w : List Char} (hw : IsSpace w) (rest : List Char) : Quiet stringExpression w rest :=
    quiet_of_not_mem startsIn_stringExpression (not_mem_of_isSpace hw (by decide)) rest
  obtain ⟨found, hfound, hstop, hgroup⟩ := matchAt?_expression hquote ht hx hy (w.getLast?.or none) (0 + w.length) z
  have hne : expression x quote t y ≠ [] := List.cons_ne_nil _ _
  rw [replaceAll, replaceAllFrom_of_quiet (hquiet hw _), replaceAllFrom_of_match hne hfound hstop, hgroup,
    Option.getD_some, replaceAllFrom_eq_self (hquiet hz [])]

lemma strip_of_tagFree (h : TagFree t) (hw : IsSpace w) (hz : IsSpace z) :
    tag.replaceAll (fun _ => []) (w ++ (t ++ z)) = w ++ (t ++ z) := by
  have hquiet {w : List Char} (hw : IsSpace w) (rest : List Char) : Quiet tag w rest :=
    quiet_of_not_mem startsIn_tag (not_mem_of_isSpace hw (by decide)) rest
  rw [replaceAll, replaceAllFrom_of_quiet (hquiet hw _),
    replaceAllFrom_of_quiet (quiet_tag h (not_mem_of_isSpace hz (by decide))), replaceAllFrom_eq_self (hquiet hz [])]

/-- A string expression is read as the text in it, as long as nothing in the text looks like a tag or an entity. -/
theorem plainText_of_expression (h : ExpressionOf t m) (htags : TagFree t) (hentities : EntityFree t) :
    plainText m = squeeze t := by
  obtain ⟨quote, w, x, y, z, hquote, ht, hw, hx, hy, hz, rfl⟩ := h
  have hdecode : decodeEntities (w ++ (t ++ z)) = w ++ (t ++ z) := by
    rw [decodeEntities_space_append hw, decodeEntities_eq_self (hentities.append_space hz)]
  rw [plainText, unwrap_expression hquote ht hw hx hy hz, strip_of_tagFree htags hw hz, hdecode, squeeze_padded hw hz]

/-- A text with no special characters in it stays as it is. -/
lemma plainText_of_plain (hbrace : '\x7b' ∉ t) (hbracket : '<' ∉ t) (hentity : '&' ∉ t) : plainText t = squeeze t := by
  have hentities : EntityFree t := by
    rintro c hc ⟨a, b, rfl⟩
    obtain ⟨name, -, -, hname⟩ := exists_entity hc
    simp [hname] at hentity
  rw [plainText, replaceAll, replaceAll, replaceAllFrom_eq_self (quiet_of_not_mem startsIn_stringExpression hbrace []),
    replaceAllFrom_eq_self (quiet_of_not_mem startsIn_tag hbracket []), decodeEntities_eq_self hentities]

/-! ## What is lost of a string expression -/

/-- The number of characters that are not blank. -/
def ink (t : List Char) : ℕ := t.countP (!isBlank ·)

lemma ink_append (t u : List Char) : ink (t ++ u) = ink t + ink u := List.countP_append

lemma ink_of_isSpace (hw : IsSpace w) : ink w = 0 := List.countP_eq_zero.2 fun c hc => by simp [hw c hc]

lemma ink_join (ws : List (List Char)) : ink (join [' '] ws) = (ws.map ink).sum := by
  induction ws with
  | nil => rfl
  | cons word ws ih =>
    by_cases hws : ws = []
    · subst hws
      simp [join]
    · rw [join_cons _ _ hws, ink_append, ink_append, ih, ink_of_isSpace (w := [' ']) (by decide)]
      simp

lemma ink_cons (c : Char) (t : List Char) : ink (c :: t) = ink t + if isBlank c then 0 else 1 := by
  rw [ink, List.countP_cons, ink]
  cases isBlank c <;> rfl

lemma sum_ink_wordsAfter (run t : List Char) : ((wordsAfter run t).map ink).sum = ink run + ink t := by
  have hreverse (run : List Char) : ink run.reverse = ink run := List.countP_reverse
  have hempty {run : List Char} (hrun : run.isEmpty = true) : ink run = 0 := by
    rw [List.isEmpty_iff.1 hrun]
    rfl
  induction t generalizing run with
  | nil =>
    rw [wordsAfter]
    split_ifs with hrun
    · rw [hempty hrun]
      rfl
    · rw [List.map_singleton, List.sum_singleton, hreverse]
      rfl
  | cons c t ih =>
    rw [wordsAfter]
    split_ifs with hc hrun
    · rw [ih, ink_cons, if_pos hc, hempty hrun]
      rfl
    · rw [List.map_cons, List.sum_cons, ih, ink_cons, if_pos hc, hreverse]
      exact congrArg (ink run + ·) (Nat.zero_add _)
    · rw [ih, ink_cons, ink_cons]
      omega

/-- Squeezing leaves the characters that are not blank. -/
lemma ink_squeeze (t : List Char) : ink (squeeze t) = ink t := by
  rw [squeeze, ink_join, words, sum_ink_wordsAfter]
  exact Nat.zero_add _

/-- A replacement by less text is seen by what is left. -/
lemma ink_replace {old new : List Char} (h : ink new < ink old) (t : List Char) :
    ink (replace old new t) ≤ ink t ∧ (ink (replace old new t) = ink t → ¬ old <:+: t) := by
  have hold : old ≠ [] := by
    rintro rfl
    exact absurd h (Nat.not_lt_zero _)
  induction hn : t.length using Nat.strong_induction_on generalizing t with
  | _ n ih =>
    by_cases hstart : old <+: t
    · obtain ⟨u, rfl⟩ := hstart
      have hlength : 0 < old.length := List.length_pos_iff.2 hold
      obtain ⟨hle, -⟩ := ih u.length (by rw [← hn, List.length_append]; omega) u rfl
      rw [replace_self_append hold, ink_append, ink_append]
      exact ⟨by omega, fun hsame => by omega⟩
    · cases t with
      | nil => exact ⟨le_rfl, fun _ hin => hold (List.infix_nil.1 hin)⟩
      | cons c t =>
        obtain ⟨hle, hnowhere⟩ := ih t.length (by rw [← hn]; exact Nat.lt_succ_self _) t rfl
        rw [replace_other_start hstart, ink_cons, ink_cons]
        refine ⟨by omega, fun hsame hin => ?_⟩
        exact (List.infix_cons_iff.1 hin).elim hstart (hnowhere (by omega))

lemma ink_decodeEntities (t : List Char) :
    ink (decodeEntities t) ≤ ink t ∧ (ink (decodeEntities t) = ink t → EntityFree t) := by
  have hpasses (cs : List Char) (hcs : ∀ c ∈ cs, c ∈ specials) (t : List Char) :
      ink (cs.foldl (fun t c => replace (escape c) [c] t) t) ≤ ink t ∧
        (ink (cs.foldl (fun t c => replace (escape c) [c] t) t) = ink t → ∀ c ∈ cs, ¬ escape c <:+: t) := by
    induction cs generalizing t with
    | nil => exact ⟨le_rfl, fun _ c hc => absurd hc List.not_mem_nil⟩
    | cons c cs ih =>
      obtain ⟨hc, hcs⟩ := List.forall_mem_cons.1 hcs
      have hless : ∀ c ∈ specials, ink [c] < ink (escape c) := by decide +kernel
      obtain ⟨hle, hnowhere⟩ := ink_replace (hless c hc) t
      obtain ⟨hle', hnowhere'⟩ := ih hcs (replace (escape c) [c] t)
      rw [List.foldl_cons]
      refine ⟨hle'.trans hle, fun hsame => ?_⟩
      -- a pass that leaves the ink leaves the text to the next one
      have hnone := hnowhere (by omega)
      rw [replace_eq_self hnone] at hnowhere' hsame
      exact List.forall_mem_cons.2 ⟨hnone, hnowhere' hsame⟩
  exact hpasses specials (fun _ hc => hc) t

lemma ink_strip (skip : ℕ) (before : Option Char) (offset : ℕ) (t : List Char) :
    ink (replaceAllFrom tag (fun _ => []) skip before offset t) ≤ ink t := by
  induction t generalizing skip before offset with
  | nil => rw [replaceAllFrom]
  | cons c t ih =>
    have hlater (skip : ℕ) := ih skip (some c) (offset + 1)
    cases skip with
    | succ skip =>
      rw [replaceAllFrom, ink_cons]
      exact (hlater skip).trans (Nat.le_add_right _ _)
    | zero =>
      rw [replaceAllFrom, ink_cons]
      split
      · exact (hlater _).trans (Nat.le_add_right _ _)
      · rw [ink_cons]
        exact Nat.add_le_add_right (hlater 0) _

/-- A tag that goes takes its brackets along. -/
lemma tagFree_of_ink (before : Option Char) (offset : ℕ)
    (h : ink (replaceAllFrom tag (fun _ => []) 0 before offset t) = ink t) : TagFree t := by
  induction t generalizing before offset with
  | nil => exact fun a b c _ _ htext => by simp at htext
  | cons c t ih =>
    rw [replaceAllFrom, ink_cons] at h
    split at h
    · next found hfound =>
      obtain ⟨q, hq, -⟩ := exists_reaches_of_matchAt? hfound
      obtain ⟨d, tail, htext, hd⟩ := startsIn_tag _ q hq
      obtain rfl : c = '<' := (List.cons.inj htext).1.trans (eq_of_beq hd)
      have hblank : isBlank '<' = false := by decide
      have hle := ink_strip (found.stop - offset - 1) (some '<') (offset + 1) t
      rw [List.nil_append, hblank, if_neg Bool.false_ne_true] at h
      omega
    · next hnone =>
      rw [ink_cons] at h
      intro a b u hb hnot htext
      rcases List.cons_eq_append_iff.1 htext with ⟨rfl, htag⟩ | ⟨a, rfl, hrest⟩
      · obtain ⟨found, hfound, -⟩ := matchAt?_tag hb hnot before offset u
        have hsame : '<' :: (b ++ ['>']) ++ u = c :: t := by rw [← htag]; simp
        rw [hsame, hnone] at hfound
        cases hfound
      · exact ih (some c) (offset + 1) (by omega) a b u hb hnot hrest

/-- Exactly the texts in which nothing looks like a tag or an entity are read back. -/
theorem plainText_expression_iff (h : ExpressionOf t m) (hline : squeeze t = t) :
    plainText m = t ↔ TagFree t ∧ EntityFree t := by
  refine ⟨fun hread => ?_, fun ⟨htags, hentities⟩ => (plainText_of_expression h htags hentities).trans hline⟩
  obtain ⟨quote, w, x, y, z, hquote, ht, hw, hx, hy, hz, rfl⟩ := h
  rw [plainText, unwrap_expression hquote ht hw hx hy hz] at hread
  have hink : ink (w ++ (t ++ z)) = ink t := by
    rw [ink_append, ink_append, ink_of_isSpace hw, ink_of_isSpace hz]
    omega
  have hsqueeze := congrArg ink hread
  rw [ink_squeeze] at hsqueeze
  have hle := ink_strip 0 none 0 (w ++ (t ++ z))
  obtain ⟨hle', hentities⟩ := ink_decodeEntities (tag.replaceAll (fun _ => []) (w ++ (t ++ z)))
  have htagFree : TagFree t := by
    rintro a b c hb hnot rfl
    have hsame : ink (tag.replaceAll (fun _ => []) (w ++ (a ++ '<' :: (b ++ '>' :: c) ++ z))) = _ :=
      hle.antisymm (by rw [hink, ← hsqueeze]; exact hle')
    exact tagFree_of_ink none 0 hsame (w ++ a) b (c ++ z) hb hnot (by simp)
  rw [strip_of_tagFree htagFree hw hz] at hsqueeze hentities
  refine ⟨htagFree, fun c hc hin => hentities (by omega) c hc (hin.trans ?_)⟩
  exact ⟨w, z, by simp⟩

end UiCatalog.Demo
