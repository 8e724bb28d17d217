import UiCatalog.Proofs.CodeElements
import UiCatalog.Proofs.ExampleList
import UiCatalog.Proofs.Locality
import UiCatalog.Proofs.Sections

/-!
# The other attributes of an element

Before its code an element may have other attributes. Those in which the patterns of the page find nothing (`Passable`)
do not change the examples: what is read before them stays where it is, what is read behind them is found further on.
-/
namespace UiCatalog.Demo

open Text Pattern Code VariantConfig

/-! ## Pages that are read alike -/

/-- Where a place of a page is when `shift` characters have been put in behind the place `cut`. -/
def moved (cut shift place : ℕ) : ℕ := if place ≤ cut then place else place + shift

/-- The match has moved and remembers the same. -/
structure ReadAlike (cut shift : ℕ) (m m' : Match) : Prop where
  start : m'.start = moved cut shift m.start
  groups : ∀ index, m'.get? index = m.get? index

/-- Read alike, with the same characters. -/
def SameText (cut shift : ℕ) (m m' : Match) : Prop := ReadAlike cut shift m m' ∧ m'.chars = m.chars

/-- The element has moved and has the same code. -/
structure CodeAlike (cut shift : ℕ) (m m' : Match) : Prop where
  start : m'.start = moved cut shift m.start
  code : m'.get 1 = m.get 1

/-- The section has moved. -/
def Section.move (cut shift : ℕ) (s : Section) : Section := { s with start := moved cut shift s.start }

variable {cut shift place : ℕ} {source source' : List Char} {package : String} {headings : List Section}
  {m m' : Match}

lemma moved_lt_moved {a b : ℕ} : moved cut shift a < moved cut shift b ↔ a < b := by
  rw [moved, moved]
  split_ifs <;> omega

lemma ReadAlike.get (h : ReadAlike cut shift m m') (index : ℕ) : m'.get index = m.get index := by
  rw [Match.get, Match.get, h.groups]

lemma ReadAlike.codeAlike (h : ReadAlike cut shift m m') : CodeAlike cut shift m m' := ⟨h.start, h.get 1⟩

lemma titleBefore?_move : titleBefore? (headings.map (Section.move cut shift)) (moved cut shift place) =
    titleBefore? headings place := by
  have hbefore : (fun s : Section => decide (s.start < moved cut shift place)) ∘ Section.move cut shift =
      fun s => decide (s.start < place) := by
    funext s
    exact decide_eq_decide.2 moved_lt_moved
  rw [titleBefore?, titleBefore?, List.takeWhile_map, hbefore, List.getLast?_map, Option.map_map]
  rfl

lemma sections_of_readAlike
    (h : List.Forall₂ (ReadAlike cut shift) (sectionPattern.findAll source) (sectionPattern.findAll source')) :
    sections source' = (sections source).map (Section.move cut shift) := by
  rw [sections, sections]
  generalize sectionPattern.findAll source = ms at h
  generalize sectionPattern.findAll source' = ms' at h
  induction h with
  | nil => rfl
  | @cons m m' _ _ hm _ ih =>
    have htitle : m'.firstOf [1, 2, 3] = m.firstOf [1, 2, 3] := by
      rw [Match.firstOf, Match.firstOf, funext hm.groups]
    rw [List.filterMap_cons, List.filterMap_cons, htitle, hm.start, ih]
    cases m.firstOf [1, 2, 3] <;> rfl

lemma importExample?_of_alike
    (h : List.Forall₂ (SameText cut shift) (importPattern.findAll source) (importPattern.findAll source')) :
    importExample? source' package = importExample? source package := by
  rw [importExample?, importExample?]
  generalize importPattern.findAll source = ms at h
  generalize importPattern.findAll source' = ms' at h
  induction h with
  | nil => rfl
  | @cons m m' _ _ hm _ ih =>
    obtain ⟨halike, hchars⟩ := hm
    rw [List.find?_cons, List.find?_cons, halike.get]
    cases isComponentModule package.toList (m.get 1)
    · exact ih
    · exact congrArg (fun chars => some (⟨"Import", String.ofList (trim chars), .importLine⟩ : Example)) hchars

/-- Adding an element only depends on its code and on the title before it. -/
lemma add_congr {headings' : List Section} (kind : Example.Kind) (c : Collected) (hget : m'.get 1 = m.get 1)
    (htitle : titleBefore? headings' m'.start = titleBefore? headings m.start) :
    c.add headings' kind m' = c.add headings kind m := by
  rw [Collected.add, Collected.add, hget, htitle]

lemma addAll_of_alike {es es' : List (Example.Kind × Match)}
    (h : List.Forall₂ (fun e e' => e'.1 = e.1 ∧ CodeAlike cut shift e.2 e'.2) es es') (c : Collected) :
    addAll (headings.map (Section.move cut shift)) c es' = addAll headings c es := by
  induction h generalizing c with
  | nil => rw [addAll, addAll, List.foldl_nil, List.foldl_nil]
  | @cons e e' _ _ he _ ih =>
    obtain ⟨hkind, halike⟩ := he
    have htitle : titleBefore? (headings.map (Section.move cut shift)) e'.2.start =
        titleBefore? headings e.2.start := by
      rw [halike.start, titleBefore?_move]
    have hadd := add_congr e'.1 c halike.code htitle
    rw [addAll_cons, addAll_cons, ← hkind, hadd, ih]

/-- Pages in which imports, sections and elements are read alike have the same examples. -/
theorem examples_of_alike
    (himports : List.Forall₂ (SameText cut shift) (importPattern.findAll source) (importPattern.findAll source'))
    (hsections : List.Forall₂ (ReadAlike cut shift) (sectionPattern.findAll source) (sectionPattern.findAll source'))
    (hlive : List.Forall₂ (CodeAlike cut shift) ((codeElement "Example").findAll source)
      ((codeElement "Example").findAll source'))
    (hblocks : List.Forall₂ (CodeAlike cut shift) ((codeElement "CodeBlock").findAll source)
      ((codeElement "CodeBlock").findAll source')) :
    examples source' package = examples source package := by
  have hkind (kind : Example.Kind) {ms ms' : List Match} (h : List.Forall₂ (CodeAlike cut shift) ms ms') :
      List.Forall₂ (fun e e' : Example.Kind × Match => e'.1 = e.1 ∧ CodeAlike cut shift e.2 e'.2) (ms.map (kind, ·))
        (ms'.map (kind, ·)) := by
    rw [List.forall₂_map_left_iff, List.forall₂_map_right_iff]
    exact h.imp fun _ _ hm => ⟨rfl, hm⟩
  rw [examples_eq, examples_eq, importExample?_of_alike himports, sections_of_readAlike hsections]
  exact congrArg Collected.examples (addAll_of_alike (List.rel_append (hkind .live hlive) (hkind .codeBlock hblocks)) _)

/-! ## Attributes that are passed by -/

/-- A text between the tag of an element and its code in which nothing is read: no angle bracket closes in it, no tag of
a section or of the other kind of element opens in it, no line of it is an import, and where it has `code` before a
template literal, that is the end of a longer word. -/
structure Passable (name : String) (t : List Char) : Prop where
  starts : ∃ c cs, t = c :: cs ∧ isWord c = false
  ends : ∃ cs c, t = cs ++ [c] ∧ isWord c = false
  inside : '>' ∉ t
  noTag : ∀ other ∈ ["Section", "Example", "CodeBlock"], other ≠ name → ∀ a u b, t = a ++ (u ++ b) →
    TagText other.toList u → ¬ WordEnds b
  noImport : ∀ a w c b, t = a ++ '\n' :: (w ++ ("import".toList ++ c :: b)) → (∀ d ∈ w, d = ' ' ∨ d = '\t') →
    isBlank c = false
  noCode : ∀ a w b, t = a ++ ("code=\x7b".toList ++ (w ++ '\x60' :: b)) → IsSpace w → ∃ c ∈ a.getLast?, isWord c = true

variable {name other : String} {pattern : Pattern} {before : Option Char} {offset : ℕ} {found : Match}
  {a b t u v w word tag lead more code rest body : List Char}

/-- Attributes without angle brackets, line feeds and backticks are passed by. -/
lemma passable_of_plain (hstarts : ∃ c cs, t = c :: cs ∧ isWord c = false)
    (hends : ∃ cs c, t = cs ++ [c] ∧ isWord c = false)
    (h : ∀ c ∈ t, c ≠ '<' ∧ c ≠ '>' ∧ c ≠ '\n' ∧ c ≠ '\x60') : Passable name t where
  starts := hstarts
  ends := hends
  inside hmem := (h _ hmem).2.1 rfl
  noTag := by
    rintro other - - a u b rfl ⟨lead, -, rfl⟩
    exact absurd rfl (h '<' (by simp)).1
  noImport := by
    rintro a w c b rfl -
    exact absurd rfl (h '\n' (by simp)).2.2.1
  noCode := by
    rintro a w b rfl -
    exact absurd rfl (h '\x60' (by simp)).2.2.2

lemma passable_blank (name : String) : Passable name [' '] :=
  passable_of_plain ⟨' ', [], rfl, by decide⟩ ⟨[], ' ', rfl, by decide⟩ (by decide)

/-! ### Texts in a row -/

/-- The places in an opening: at the bracket, in the name, or in the attributes. -/
lemma places_of_opening (hword : ∀ c ∈ word, isWord c = true) (h : '<' :: word ++ (t ++ ['c']) = a ++ b) (hb : b ≠ []) :
    a = [] ∨ (∃ x c z, a = '<' :: x ∧ b = c :: z ∧ (∀ d ∈ x, isWord d = true) ∧ isWord c = true) ∨
      ∃ x z, a = '<' :: word ++ x ∧ b = z ++ ['c'] ∧ t = x ++ z := by
  have hconcat {x : List Char} (h : t ++ ['c'] = x ++ b) : ∃ z, b = z ++ ['c'] ∧ t = x ++ z := by
    obtain rfl | ⟨z, d, rfl⟩ := List.eq_nil_or_concat b
    · exact absurd rfl hb
    · rw [List.concat_eq_append, ← List.append_assoc] at h
      obtain ⟨ht, hd⟩ := List.append_inj' h rfl
      exact ⟨z, by rw [List.concat_eq_append, ← hd], ht⟩
  rcases List.cons_eq_append_iff.1 h with ⟨rfl, -⟩ | ⟨x, rfl, hsplit⟩
  · exact .inl rfl
  · rcases List.append_eq_append_iff.1 hsplit with ⟨y, rfl, hy⟩ | ⟨y, rfl, rfl⟩
    · obtain ⟨z, rfl, rfl⟩ := hconcat hy
      exact .inr (.inr ⟨y, z, rfl, rfl, rfl⟩)
    · cases y with
      | nil => exact .inr (.inr ⟨[], t, by simp, rfl, rfl⟩)
      | cons c y =>
        refine .inr (.inl ⟨x, c, _, rfl, rfl, fun d hd => hword d (List.mem_append_left _ hd), hword c ?_⟩)
        exact List.mem_append_right _ (.head _)

/-! ### No import in the opening -/

/-- An import starts in a line of its own. -/
lemma starts_of_importPattern (h : matchAt? importPattern before offset t = some found) :
    (∀ c ∈ before, c = '\n') ∧ ∃ w c rest, (∀ d ∈ w, d = ' ' ∨ d = '\t') ∧ isBlank c = true ∧
      t = w ++ ("import".toList ++ c :: rest) := by
  obtain ⟨q, hq, -⟩ := exists_reaches_of_matchAt? h
  obtain ⟨_, ⟨_, ⟨_, ⟨_, ⟨_, ⟨_, ⟨_, ⟨_, hfront, -⟩, -⟩, -⟩, -⟩, -⟩, -⟩, -⟩, -⟩ := hq
  obtain ⟨_, ⟨_, ⟨_, ⟨hline, rfl⟩, ⟨w, rest, ht, hw, rfl⟩⟩, hkeyword⟩, ⟨_, ⟨c, rest', hrest, hc, rfl⟩, -⟩⟩ := hfront
  obtain ⟨xs, tail, hxs, hrest₀, rfl⟩ := (reaches_iff_of_plain (plain_text "import")).1 hkeyword
  obtain rfl := spells_text.1 hxs
  refine ⟨?_, w, c, rest', fun d hd => by simpa using hw d hd, hc, ?_⟩
  · intro c hc
    simpa [Option.mem_def.1 hc] using hline
  · rw [show t = w ++ rest from ht, show rest = _ ++ tail from hrest₀, show tail = c :: rest' from hrest]

lemma head_of_import {d : Char} {w u v : List Char} (hw : ∀ c ∈ w, c = ' ' ∨ c = '\t')
    (h : d :: u = w ++ ("import".toList ++ v)) : d = ' ' ∨ d = '\t' ∨ d = 'i' := by
  cases w with
  | nil => exact .inr (.inr (List.cons.inj h).1)
  | cons c w =>
    obtain rfl := (List.cons.inj h).1
    exact (hw d (.head _)).imp_right .inl

/-- A line starts behind the end of another one. -/
lemma getLast?_of_lineStart {a : List Char} (hne : a ≠ []) (h : ∀ c ∈ a.getLast?.or before, c = '\n') :
    a.getLast? = some '\n' := by
  rw [List.getLast?_eq_some_getLast hne] at h ⊢
  exact congrArg some (h _ rfl)

lemma quietBehind_importPattern (hword : ∀ c ∈ word, isWord c = true) (h : Passable name t) (before : Option Char)
    (v : List Char) : QuietBehind importPattern before ('<' :: word ++ (t ++ ['c'])) v := by
  intro a b offset hab hb
  refine Option.eq_none_iff_forall_ne_some.2 fun found hfound => ?_
  obtain ⟨hline, w, c, rest, hw, hc, hstart⟩ := starts_of_importPattern hfound
  have hnotLine {x : List Char} (hx : ∀ d ∈ x, isWord d = true) : ('<' :: x).getLast? ≠ some '\n' := by
    intro hlast
    rcases List.mem_cons.1 (List.mem_of_getLast? hlast) with heq | hmem
    · exact absurd heq (by decide)
    · exact absurd (hx _ hmem) (by decide)
  rcases places_of_opening hword hab hb with rfl | ⟨x, d, z, rfl, -, hx, -⟩ | ⟨x, z, rfl, rfl, rfl⟩
  · -- a bracket neither indents nor starts the keyword
    rw [List.nil_append] at hab
    rw [← hab] at hstart
    exact absurd (head_of_import hw hstart) (by decide)
  · exact hnotLine hx (getLast?_of_lineStart (by simp) hline)
  · obtain rfl | ⟨x, d, rfl⟩ := List.eq_nil_or_concat x
    · rw [List.append_nil] at hline
      exact hnotLine hword (getLast?_of_lineStart (by simp) hline)
    · have hlast := getLast?_of_lineStart (by simp) hline
      rw [List.concat_eq_append, ← List.append_assoc, List.getLast?_concat, Option.some.injEq] at hlast
      subst hlast
      have hnot : 'c' ∉ w ++ ("import".toList ++ [c]) := by
        intro hmem
        rcases List.mem_append.1 hmem with hmem | hmem
        · exact absurd (hw _ hmem) (by decide)
        · rcases List.mem_append.1 hmem with hmem | hmem
          · exact absurd hmem (by decide)
          · rw [← List.mem_singleton.1 hmem] at hc
            exact absurd hc (by decide)
      have hkeyword : z ++ 'c' :: v = w ++ ("import".toList ++ [c]) ++ rest := by
        simpa using hstart
      obtain ⟨z, rfl⟩ := exists_append_of_not_mem hkeyword hnot
      have hblank := h.noImport x w c z (by simp) hw
      rw [hc] at hblank
      cases hblank

/-! ### No other tag in the opening -/

/-- The pattern reads nothing that does not start with a tag whose name ends in `other`. -/
def StartsWithTag (pattern : Pattern) (other : List Char) : Prop := ∀ before offset s found,
  matchAt? pattern before offset s = some found → ∃ u rest, TagText other u ∧ WordEnds rest ∧ s = u ++ rest

lemma startsWithTag_codeElement (hn : IsWordName name.toList) : StartsWithTag (codeElement name) name.toList := by
  intro before offset s found h
  obtain ⟨tag, lead, t, rest, rfl, helement, -, -⟩ := isCodeElement_of_matchAt? hn h
  exact ⟨tag, _, helement.opens, helement.tagEnds, rfl⟩

lemma startsWithTag_sectionPattern : StartsWithTag sectionPattern "Section".toList := by
  intro before offset s found h
  rw [matchAt?_sectionPattern] at h
  obtain ⟨tag, lead, t, rest, title, rfl, helement, -, -, -⟩ :=
    isElement_of_matchAt? opens_sectionOpening holds_titleAttribute h
  exact ⟨tag, _, ⟨[], .inl rfl, helement.opens⟩, helement.tagEnds, rfl⟩

/-- A tag name starts with a capital. -/
def IsTagName (name : List Char) : Prop := IsWordName name ∧ ∀ c ∈ name.head?, c.isUpper = true

lemma TagText.upper {name : List Char} (hn : IsTagName name) (h : TagText name t) :
    ∃ c cs, c.isUpper = true ∧ t = '<' :: c :: cs := by
  obtain ⟨_, rfl | ⟨c, cs, hc, -, rfl⟩, rfl⟩ := h
  · obtain ⟨c, cs, rfl⟩ := List.exists_cons_of_ne_nil hn.1.1
    exact ⟨c, cs, hn.2 c rfl, rfl⟩
  · exact ⟨c, cs ++ name, hc, rfl⟩

lemma TagText.getLast? {name : List Char} (hn : IsWordName name) (h : TagText name t) :
    t.getLast? = name.getLast? := by
  obtain ⟨lead, -, rfl⟩ := h
  rw [← List.cons_append, List.getLast?_append_of_ne_nil _ hn.1]

/-- A tag that starts within the attributes ends within them: a word does not go on from them to the code. -/
lemma exists_tag_within {z rest : List Char} {other : List Char} (ho : IsTagName other) (hu : TagText other u)
    (hends : WordEnds rest) (ht : ∃ cs c, t = cs ++ [c] ∧ isWord c = false) (hz : ∃ x, t = x ++ z)
    (h : z ++ 'c' :: v = u ++ rest) : ∃ y, z = u ++ y ∧ WordEnds y := by
  obtain ⟨d, ds, hd, hcapital⟩ := hu.upper ho
  obtain ⟨word, -, hword, hbracket⟩ := hu.word ho.1
  obtain ⟨x, rfl⟩ := hz
  obtain ⟨cs, e, hlast, he⟩ := ht
  rcases List.append_eq_append_iff.1 h with ⟨y, hy, hbehind⟩ | ⟨y, rfl, hbehind⟩
  · obtain rfl | ⟨z, e', rfl⟩ := List.eq_nil_or_concat z
    · rw [List.nil_append, hcapital] at hy
      rw [← hy] at hbehind
      exact absurd (List.cons.inj hbehind).1 (by decide)
    · rw [List.concat_eq_append] at hlast hy
      rw [← List.append_assoc] at hlast
      obtain rfl : e' = e := (List.cons.inj (List.append_inj' hlast rfl).2).1
      cases z with
      | nil =>
        rw [hcapital] at hy
        have hy : d :: ds = y := (List.cons.inj hy).2
        rw [← hy] at hbehind
        rw [← (List.cons.inj hbehind).1] at hd
        exact absurd hd (by decide)
      | cons f z =>
        rw [hbracket] at hy
        have hy : word = z ++ [e'] ++ y := (List.cons.inj hy).2
        have hmem : e' ∈ word := by simp [hy]
        rw [hword e' hmem] at he
        cases he
  · refine ⟨y, rfl, fun c hc => hends c ?_⟩
    rw [hbehind, List.head?_append, Option.mem_def.1 hc]
    rfl

lemma quietBehind_of_startsWithTag {other : String} (hn : IsWordName name.toList) (ho : IsTagName other.toList)
    (hother : other ∈ ["Section", "Example", "CodeBlock"]) (hne : other.toList.getLast? ≠ name.toList.getLast?)
    (htag : TagText name.toList tag) (hp : StartsWithTag pattern other.toList) (h : Passable name t)
    (before : Option Char) (v : List Char) : QuietBehind pattern before (tag ++ (t ++ ['c'])) v := by
  intro a b offset hab hb
  refine Option.eq_none_iff_forall_ne_some.2 fun found hfound => ?_
  obtain ⟨u, rest, hu, hends, hstart⟩ := hp _ _ _ _ hfound
  obtain ⟨word, -, hword, hbracket⟩ := htag.word hn
  rw [hbracket] at hab
  rcases places_of_opening hword hab hb with rfl | ⟨x, c, z, rfl, rfl, -, hc⟩ | ⟨x, z, rfl, rfl, rfl⟩
  · obtain ⟨c, cs, rfl, hc⟩ := h.starts
    have hbehind : WordEnds (c :: cs ++ ['c'] ++ v) := by
      rintro e he
      obtain rfl : c = e := Option.some.inj he
      exact hc
    rw [List.nil_append, ← hbracket] at hab
    rw [← hab, List.append_assoc] at hstart
    obtain ⟨hsame, -⟩ := tag_unique hn ho.1 htag hu hbehind hends hstart
    rw [← hu.getLast? ho.1, ← hsame, htag.getLast? hn] at hne
    exact hne rfl
  · obtain ⟨d, ds, -, hcapital⟩ := hu.upper ho
    rw [hcapital] at hstart
    obtain rfl := (List.cons.inj hstart).1
    exact absurd hc (by decide)
  · rw [List.append_assoc] at hstart
    obtain ⟨y, rfl, hy⟩ := exists_tag_within ho hu hends h.ends ⟨x, rfl⟩ hstart
    exact h.noTag other hother (fun hsame => hne (by rw [hsame])) x u y rfl hu hy

/-! ### The element is read -/

lemma CodeText.ends (h : CodeText body t) : ∃ front, t = 'c' :: front ++ ['\x7d'] := by
  obtain ⟨w, w', -, -, -, rfl⟩ := h
  exact ⟨"ode=\x7b".toList ++ (w ++ '\x60' :: (body ++ '\x60' :: w')), by simp⟩

/-- Behind such attributes the code is that of the element. -/
lemma Passable.isCodeElement (h : Passable name t) (htag : TagText name.toList tag) (hcode : CodeText body code)
    (rest : List Char) : IsCodeElement name tag t code rest body := by
  obtain ⟨more, rfl⟩ : ∃ more, code = 'c' :: more := hcode.ends.imp' (· ++ ['\x7d']) fun _ h => h
  obtain ⟨c, cs, hfirst, hc⟩ := h.starts
  obtain ⟨front, e, hlast, he⟩ := h.ends
  refine ⟨htag, hcode, h.inside, ?_, ?_, ?_⟩
  · intro d hd
    rw [hfirst] at hd
    exact Option.some.inj hd ▸ hc
  · rw [EdgeBetween, hlast, ← List.append_assoc, List.getLast?_concat, Option.any_some, he, List.cons_append,
      List.head?_cons, Option.any_some]
    decide
  · rintro a (_ | ⟨c, b⟩) hab hb hedge value' _ rest' ⟨w, w', hw, -, -, rfl⟩ htext
    · exact absurd rfl hb
    have hkey : "code=\x7b".toList = 'c' :: "ode=\x7b".toList := by decide
    rw [hkey] at htext
    obtain ⟨rfl, htail⟩ := List.cons.inj htext
    have hopen : b ++ 'c' :: (more ++ rest) =
        "ode=\x7b".toList ++ (w ++ ['\x60']) ++ (value' ++ '\x60' :: (w' ++ ['\x7d']) ++ rest') := by
      simpa using htail
    have hnot : 'c' ∉ "ode=\x7b".toList ++ (w ++ ['\x60']) := by
      have hblank : 'c' ∉ w := fun hmem => absurd (hw _ hmem) (by decide)
      simp [hblank]
    obtain ⟨z, rfl⟩ := exists_append_of_not_mem hopen hnot
    -- so the attribute would stand within the text, where it is the end of a longer word
    obtain ⟨d, hd, hword⟩ := h.noCode a w z (by rw [hab, hkey]; simp) hw
    have hbefore : (tag ++ a).getLast? = some d := by rw [List.getLast?_append, Option.mem_def.1 hd, Option.some_or]
    rw [EdgeBetween, hbefore, Option.any_some, hword, List.cons_append, List.head?_cons, Option.any_some] at hedge
    exact hedge (by decide)

/-! ## The examples of a page with attributes put in -/

/-- What is read of a page. -/
def readings : List Pattern := [importPattern, sectionPattern, codeElement "Example", codeElement "CodeBlock"]

/-- Nothing that is read before the place goes over it. -/
def StandsFree (source : List Char) (place : ℕ) : Prop := ∀ pattern ∈ readings, Within place (pattern.findAll source)

lemma readAlike_of_moves_before (h : m.Moves 0 m') (hplace : m.start < cut) : ReadAlike cut shift m m' where
  start := by
    rw [moved, if_pos hplace.le]
    exact h.whole.start
  groups := h.get?

lemma readAlike_of_moves_behind (h : m.Moves shift m') (hplace : cut < m.start) : ReadAlike cut shift m m' where
  start := by
    rw [moved, if_neg hplace.not_ge]
    exact h.whole.start
  groups := h.get?

lemma head?_append_eq (hne : tag ≠ []) (u v : List Char) : (tag ++ u).head? = (tag ++ v).head? := by
  rw [List.head?_append_of_ne_nil _ hne, List.head?_append_of_ne_nil _ hne]

/-- What is read before the place is the same in both pages. -/
lemma exists_findAll_lead {x x' : List Char} (shift : ℕ) (hhead : x'.head? = x.head?)
    (hin : Within lead.length (pattern.findAll (lead ++ x)))
    (hin' : Within lead.length (pattern.findAll (lead ++ x'))) :
    ∃ ms ms', pattern.findAll (lead ++ x) = ms ++ findAllFrom pattern 0 lead.getLast? lead.length x ∧
      pattern.findAll (lead ++ x') = ms' ++ findAllFrom pattern 0 lead.getLast? lead.length x' ∧
      List.Forall₂ (SameText lead.length shift) ms ms' := by
  obtain ⟨ms, ms', hms, hms', hmoves, hbefore⟩ := exists_findAll_append pattern hhead hin hin'
  refine ⟨ms, ms', hms, hms', ((List.forall₂_and_left _ _).2 ⟨hbefore, hmoves⟩).imp ?_⟩
  rintro m m' ⟨hplace, h⟩
  exact ⟨readAlike_of_moves_before h hplace, h.whole.chars⟩

/-- What is read behind the place is the same, further on. -/
lemma forall₂_findAllFrom_behind (pattern : Pattern) (shift : ℕ) (before : Option Char) {place : ℕ}
    (hplace : cut < place) (s : List Char) : List.Forall₂ (SameText cut shift) (findAllFrom pattern 0 before place s)
      (findAllFrom pattern 0 before (place + shift) s) := by
  have hbehind : ∀ m ∈ findAllFrom pattern 0 before place s, cut < m.start := fun m hm =>
    hplace.trans_le (start_of_mem_findAllFrom hm)
  refine ((List.forall₂_and_left _ _).2 ⟨hbehind, forall₂_findAllFrom_shift pattern shift before place s⟩).imp ?_
  rintro m m' ⟨hm, h⟩
  exact ⟨readAlike_of_moves_behind h hm, h.whole.chars⟩

/-- A page with the attributes `t` between a tag and its code. -/
def pageWith (lead tag code rest t : List Char) : List Char := lead ++ (tag ++ (t ++ (code ++ rest)))

/-- Where a pattern reads nothing in the opening, it reads alike with more attributes. -/
lemma forall₂_of_quietBehind {extra : List Char} (hcode : code = 'c' :: more) (hne : tag ≠ [])
    (hin : Within lead.length (pattern.findAll (pageWith lead tag code rest t)))
    (hin' : Within lead.length (pattern.findAll (pageWith lead tag code rest (t ++ extra))))
    (hquiet : QuietBehind pattern lead.getLast? (tag ++ (t ++ ['c'])) (more ++ rest))
    (hquiet' : QuietBehind pattern lead.getLast? (tag ++ (t ++ extra ++ ['c'])) (more ++ rest)) :
    List.Forall₂ (SameText lead.length extra.length) (pattern.findAll (pageWith lead tag code rest t))
      (pattern.findAll (pageWith lead tag code rest (t ++ extra))) := by
  have hpage (t : List Char) : tag ++ (t ++ (code ++ rest)) = tag ++ (t ++ ['c']) ++ (more ++ rest) := by
    simp [hcode]
  obtain ⟨ms, ms', hms, hms', hlead⟩ := exists_findAll_lead extra.length (head?_append_eq hne _ _) hin hin'
  rw [hpage, findAllFrom_of_quietBehind hquiet, ← hpage] at hms
  rw [hpage, findAllFrom_of_quietBehind hquiet', ← hpage] at hms'
  rw [pageWith, pageWith, hms, hms']
  refine List.rel_append hlead ?_
  have hlast (t : List Char) : (tag ++ (t ++ ['c'])).getLast?.or lead.getLast? = some 'c' := by
    rw [← List.append_assoc, List.getLast?_concat, Option.some_or]
  have hlength : lead.length + (tag ++ (t ++ extra ++ ['c'])).length =
      lead.length + (tag ++ (t ++ ['c'])).length + extra.length := by
    simp
    omega
  rw [hlast, hlast, hlength]
  refine forall₂_findAllFrom_behind pattern extra.length _ ?_ _
  simp

/-- The element is read with its code, and the pattern goes on behind it. -/
lemma exists_findAllFrom_codeElement (hn : IsWordName name.toList) (htag : TagText name.toList tag)
    (hcode : CodeText body code) (h : Passable name t) (before : Option Char) (place : ℕ) (rest : List Char) :
    ∃ found, found.start = place ∧ found.get 1 = body ∧
      findAllFrom (codeElement name) 0 before place (tag ++ (t ++ (code ++ rest))) =
        found :: findAllFrom (codeElement name) 0 (some '\x7d') (place + (tag ++ (t ++ code)).length) rest := by
  obtain ⟨found, hfound, hstop, hbody⟩ :=
    matchAt?_of_isCodeElement hn (h.isCodeElement htag hcode rest) before place
  have hpage : tag ++ (t ++ (code ++ rest)) = tag ++ (t ++ code) ++ rest := by simp
  have hlast : (tag ++ (t ++ code)).getLast?.or before = some '\x7d' := by
    obtain ⟨front, rfl⟩ := hcode.ends
    rw [← List.append_assoc, ← List.append_assoc, List.getLast?_concat, Option.some_or]
  have hne : tag ++ (t ++ code) ≠ [] := by simp [(opens_tagOpening hn).nonempty tag htag]
  refine ⟨found, start_of_matchAt? hfound, hbody, ?_⟩
  rw [hpage] at hfound ⊢
  rw [findAllFrom_of_match hne hfound hstop, hlast]

/-- With more attributes the element has the same code, and behind it its pattern reads alike. -/
lemma forall₂_codeElement {extra : List Char} (hn : IsWordName name.toList) (htag : TagText name.toList tag)
    (hcode : CodeText body code) (h : Passable name t) (h' : Passable name (t ++ extra))
    (hin : Within lead.length ((codeElement name).findAll (pageWith lead tag code rest t)))
    (hin' : Within lead.length ((codeElement name).findAll (pageWith lead tag code rest (t ++ extra)))) :
    List.Forall₂ (CodeAlike lead.length extra.length) ((codeElement name).findAll (pageWith lead tag code rest t))
      ((codeElement name).findAll (pageWith lead tag code rest (t ++ extra))) := by
  have hne := (opens_tagOpening hn).nonempty tag htag
  obtain ⟨ms, ms', hms, hms', hlead⟩ := exists_findAll_lead extra.length (head?_append_eq hne _ _) hin hin'
  obtain ⟨found, hstart, hbody, hfound⟩ :=
    exists_findAllFrom_codeElement hn htag hcode h lead.getLast? lead.length rest
  obtain ⟨found', hstart', hbody', hfound'⟩ :=
    exists_findAllFrom_codeElement hn htag hcode h' lead.getLast? lead.length rest
  have hlength : lead.length + (tag ++ (t ++ extra ++ code)).length =
      lead.length + (tag ++ (t ++ code)).length + extra.length := by
    simp
    omega
  have hplace : lead.length < lead.length + (tag ++ (t ++ code)).length := by
    have hpos := List.length_pos_iff.2 hne
    rw [List.length_append]
    omega
  have hsame : CodeAlike lead.length extra.length found found' := by
    refine ⟨?_, hbody'.trans hbody.symm⟩
    rw [moved, hstart, hstart', if_pos le_rfl]
  rw [pageWith, pageWith, hms, hms', hfound, hfound', hlength]
  refine List.rel_append (hlead.imp fun _ _ hm => hm.1.codeAlike) (.cons hsame ?_)
  exact (forall₂_findAllFrom_behind _ extra.length _ hplace rest).imp fun _ _ hm => hm.1.codeAlike

lemma isTagName_section : IsTagName "Section".toList := by
  refine ⟨⟨by decide, by decide⟩, fun c hc => ?_⟩
  exact Option.some.inj hc ▸ (by decide)

lemma isTagName_example : IsTagName "Example".toList :=
  ⟨isWordName_example, fun c hc => Option.some.inj hc ▸ (by decide)⟩

lemma isTagName_codeBlock : IsTagName "CodeBlock".toList :=
  ⟨isWordName_codeBlock, fun c hc => Option.some.inj hc ▸ (by decide)⟩

lemma exists_mem_findAll_codeElement (hn : IsWordName name.toList) (htag : TagText name.toList tag)
    (hcode : CodeText body code) (h : Passable name t)
    (hin : Within lead.length ((codeElement name).findAll (pageWith lead tag code rest t))) :
    ∃ found ∈ (codeElement name).findAll (pageWith lead tag code rest t),
      found.start = lead.length ∧ found.get 1 = body := by
  obtain ⟨found, hfound, -, hbody⟩ :=
    matchAt?_of_isCodeElement hn (h.isCodeElement htag hcode rest) lead.getLast? lead.length
  have hstart := start_of_matchAt? hfound
  refine ⟨found, (mem_findAll_or_covered hfound).resolve_right ?_, hstart, hbody⟩
  rintro ⟨m, hm, hbefore, hbehind⟩
  have hle := hin m hm (hstart ▸ hbefore)
  omega

/-- An element is read whatever attributes stand before its code, and more attributes do not change the examples of
the page: as long as nothing is read in them, and nothing that is read before the element goes over into it. -/
theorem examples_with_attributes (name : String) (hname : name = "Example" ∨ name = "CodeBlock") (package : String)
    (lead tag code rest body t extra : List Char) (htag : TagText name.toList tag) (hcode : CodeText body code)
    (h : Passable name t) (h' : Passable name (t ++ extra))
    (hfree : StandsFree (pageWith lead tag code rest t) lead.length)
    (hfree' : StandsFree (pageWith lead tag code rest (t ++ extra)) lead.length) :
    (∃ found ∈ (codeElement name).findAll (pageWith lead tag code rest (t ++ extra)),
        found.start = lead.length ∧ found.get 1 = body) ∧
      examples (pageWith lead tag code rest (t ++ extra)) package =
        examples (pageWith lead tag code rest t) package := by
  obtain ⟨front, hends⟩ := hcode.ends
  rw [List.cons_append] at hends
  have himport : importPattern ∈ readings := .head _
  have hsection : sectionPattern ∈ readings := .tail _ (.head _)
  have hexample : codeElement "Example" ∈ readings := .tail _ (.tail _ (.head _))
  have hblock : codeElement "CodeBlock" ∈ readings := .tail _ (.tail _ (.tail _ (.head _)))
  have hword : IsWordName name.toList := by
    rcases hname with rfl | rfl
    · exact isWordName_example
    · exact isWordName_codeBlock
  have hne := (opens_tagOpening hword).nonempty tag htag
  obtain ⟨word, -, hletters, hbracket⟩ := htag.word hword
  have himports := forall₂_of_quietBehind hends hne (hfree _ himport) (hfree' _ himport)
    (hbracket ▸ quietBehind_importPattern hletters h _ _) (hbracket ▸ quietBehind_importPattern hletters h' _ _)
  have hother {pattern : Pattern} {other : String} (hp : StartsWithTag pattern other.toList) (hin : pattern ∈ readings)
      (ho : IsTagName other.toList) (hname : other ∈ ["Section", "Example", "CodeBlock"])
      (hlast : other.toList.getLast? ≠ name.toList.getLast?) :=
    forall₂_of_quietBehind hends hne (hfree pattern hin) (hfree' pattern hin)
      (quietBehind_of_startsWithTag hword ho hname hlast htag hp h _ _)
      (quietBehind_of_startsWithTag hword ho hname hlast htag hp h' _ _)
  rcases hname with rfl | rfl
  · have hsections := hother startsWithTag_sectionPattern hsection isTagName_section (by decide) (by decide)
    have hblocks := hother (startsWithTag_codeElement isWordName_codeBlock) hblock isTagName_codeBlock (by decide)
      (by decide)
    refine ⟨exists_mem_findAll_codeElement hword htag hcode h' (hfree' _ hexample), ?_⟩
    exact examples_of_alike himports (hsections.imp fun _ _ hm => hm.1)
      (forall₂_codeElement hword htag hcode h h' (hfree _ hexample) (hfree' _ hexample))
      (hblocks.imp fun _ _ hm => hm.1.codeAlike)
  · have hsections := hother startsWithTag_sectionPattern hsection isTagName_section (by decide) (by decide)
    have hlive := hother (startsWithTag_codeElement isWordName_example) hexample isTagName_example (by decide)
      (by decide)
    refine ⟨exists_mem_findAll_codeElement hword htag hcode h' (hfree' _ hblock), ?_⟩
    exact examples_of_alike himports (hsections.imp fun _ _ hm => hm.1) (hlive.imp fun _ _ hm => hm.1.codeAlike)
      (forall₂_codeElement hword htag hcode h h' (hfree _ hblock) (hfree' _ hblock))

/-! ## Examples with and without attributes -/

lemma templateBody_of_plain (h : ∀ c ∈ body, c ≠ '\x60' ∧ c ≠ '\\') : TemplateBody body := by
  induction body with
  | nil => exact .nil
  | cons c cs ih =>
    obtain ⟨hc, hcs⟩ := List.forall_mem_cons.1 h
    exact .plain hc.1 hc.2 (ih hcs)

lemma standsFree_of_all {place : ℕ} (h : (readings.all fun pattern => (pattern.findAll source).all fun m =>
    decide (place ≤ m.start) || decide (m.stop ≤ place)) = true) : StandsFree source place := by
  intro pattern hpattern m hm hbefore
  have hplace := List.all_eq_true.1 (List.all_eq_true.1 h pattern hpattern) m hm
  simp only [Bool.or_eq_true, decide_eq_true_eq] at hplace
  omega

def sizesLead : List Char := "<Section title=\"Sizes\">\n".toList

def sizesCode : List Char := "code=\x7b\x60<A />\x60\x7d".toList

/-- A page with a section and one example, which has the attributes `t` before its code. -/
def sizesPage (t : List Char) : List Char := pageWith sizesLead "<Example".toList sizesCode " />".toList t

lemma codeText_sizesCode : CodeText "<A />".toList sizesCode :=
  ⟨[], [], isSpace_nil, templateBody_of_plain (by decide), isSpace_nil, by decide⟩

lemma examples_sizesPage {t body : List Char} (himport : importExample? (sizesPage t) "ui" = none)
    (hlive : ((codeElement "Example").findAll (sizesPage t)).map (fun m => (m.start, m.get 1)) = [(24, body)])
    (hblocks : (codeElement "CodeBlock").findAll (sizesPage t) = [])
    (htitle : titleBefore? (sections (sizesPage t)) 24 = some "Sizes".toList)
    (hcode : dedent (unescapeTemplate body) = body) (hne : body ≠ []) :
    examples (sizesPage t) "ui" = [⟨"Sizes", String.ofList body, .live⟩] := by
  obtain ⟨title, hexamples, rfl⟩ := examples_of_single himport hlive hblocks (by rwa [hcode])
  rw [hexamples, htitle, hcode]
  rfl

lemma examples_sizesPage_blank : examples (sizesPage [' ']) "ui" = [⟨"Sizes", "<A />", .live⟩] := by
  have hlive : ((codeElement "Example").findAll (sizesPage [' '])).map (fun m => (m.start, m.get 1)) =
    [(24, "<A />".toList)] := by cbv
  exact examples_sizesPage (by cbv) hlive (by cbv) (by cbv) (by cbv) (by decide)

theorem examples_with_title_and_handler :
    examples (sizesPage ([' '] ++ "title=\"Small\" onClick=\x7bgo\x7d ".toList)) "ui" =
        examples (sizesPage [' ']) "ui" ∧
      examples (sizesPage [' ']) "ui" = [⟨"Sizes", "<A />", .live⟩] := by
  have hmore : Passable "Example" ([' '] ++ "title=\"Small\" onClick=\x7bgo\x7d ".toList) :=
    passable_of_plain ⟨' ', _, rfl, by decide⟩ ⟨" title=\"Small\" onClick=\x7bgo\x7d".toList, ' ', by decide, by decide⟩
      (by decide)
  exact ⟨(examples_with_attributes "Example" (.inl rfl) "ui" sizesLead "<Example".toList sizesCode " />".toList
    "<A />".toList [' '] _ ⟨[], .inl rfl, rfl⟩ codeText_sizesCode (passable_blank _) hmore (standsFree_of_all (by cbv))
    (standsFree_of_all (by cbv))).2, examples_sizesPage_blank⟩

/-- Behind the angle bracket of an arrow or of a text no code is found, and an attribute whose name ends in `code` is
taken for it. -/
theorem examples_behind_other_attributes :
    examples (sizesPage [' ']) "ui" = [⟨"Sizes", "<A />", .live⟩] ∧
      examples (sizesPage " onClick=\x7b() => go()\x7d ".toList) "ui" = [] ∧
      examples (sizesPage " title=\"a > b\" ".toList) "ui" = [] ∧
      examples (sizesPage " zip-code=\x7b\x60x\x60\x7d ".toList) "ui" = [⟨"Sizes", "x", .live⟩] := by
  have hzip : ((codeElement "Example").findAll (sizesPage " zip-code=\x7b\x60x\x60\x7d ".toList)).map
      (fun m => (m.start, m.get 1)) = [(24, "x".toList)] := by cbv
  exact ⟨examples_sizesPage_blank, examples_of_none (by cbv) (by cbv) (by cbv),
    examples_of_none (by cbv) (by cbv) (by cbv),
    examples_sizesPage (by cbv) hzip (by cbv) (by cbv) (by cbv) (by decide)⟩

end UiCatalog.Demo
