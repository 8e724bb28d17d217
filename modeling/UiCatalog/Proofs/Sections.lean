import UiCatalog.Demo.Section
import UiCatalog.Proofs.Elements

/-!
# Sections

The pattern of a section finds `<Section` tags and reads the first `title` attribute in quotes, or in braces and quotes,
before the next closing angle bracket. So every section that is listed stands in the page, and every one that stands
there is listed, but for those within the opening of another.
-/
namespace UiCatalog.Demo

open Text Pattern Code VariantConfig

/-! ## Texts -/

/-- A title that can be read: in quotes that do not stand in it, or in braces and quotes with no quote mark in it. -/
inductive TitleText (title : List Char) : List Char → Prop
  | quoted {quote} : quote = '"' ∨ quote = '\'' → quote ∉ title →
      TitleText title ("title=".toList ++ quote :: (title ++ [quote]))
  | braced {w o c w'} : IsSpace w → isQuoteMark o = true → (∀ d ∈ title, isQuoteMark d = false) →
      isQuoteMark c = true → IsSpace w' →
      TitleText title ("title=".toList ++ '\x7b' :: (w ++ o :: (title ++ c :: (w' ++ ['\x7d']))))

/-- The start of a section as it stands before `rest`, with the text `lead` between its tag and the title. -/
abbrev IsSectionStart (lead t rest title : List Char) : Prop :=
  IsElement (· = "<Section".toList) TitleText "<Section".toList lead t rest title

/-- A section with a title starts behind the first `place` characters of the page; `extent` is its text up to there. -/
def SectionAt (source : List Char) (place : ℕ) (title extent : List Char) : Prop :=
  ∃ lead t rest, source.drop place = "<Section".toList ++ (lead ++ (t ++ rest)) ∧ IsSectionStart lead t rest title ∧
    extent = "<Section".toList ++ (lead ++ t)

/-! ## Patterns -/

def sectionOpening : Pattern := wholeWord "<Section"

/-- A title in quotes, which do not stand in it. -/
def quotedTitle (quote : Char) (index : ℕ) : Pattern :=
  char quote ++ (group index (many (· != quote)) ++ char quote)

def bracedFront : Pattern := char '\x7b' ++ (blanks ++ one isQuoteMark)

def bracedBack : Pattern := one isQuoteMark ++ (blanks ++ char '\x7d')

def bracedTitle : Pattern := bracedFront ++ (group 3 (many fun c => !isQuoteMark c) ++ bracedBack)

def titleAttribute : Pattern := text "title=" ++ (quotedTitle '"' 1 <|> quotedTitle '\'' 2 <|> bracedTitle)

lemma matchAt?_sectionPattern : matchAt? sectionPattern = matchAt? (elementWith sectionOpening titleAttribute) := rfl

/-- The title of the section start that has been read. -/
def titleOf (groups : List (ℕ × Capture)) : Option (List Char) :=
  [1, 2, 3].findSome? fun index => (groups.lookup index).map Capture.chars

variable {source lead t rest title : List Char} {place : ℕ}

lemma opens_sectionOpening : Opens sectionOpening (· = "<Section".toList) where
  oneWay := (oneWay_text _).append oneWay_wordEdge
  nonempty t ht := ht ▸ List.cons_ne_nil _ _
  reaches_iff p q := by
    have hword : ∀ c ∈ "<Section".toList.getLast?, isWord c = true := by
      intro c hc
      exact Option.some.inj hc ▸ (by decide)
    rw [sectionOpening, reaches_wholeWord "<Section" hword (List.cons_ne_nil _ _)]
    simp only [exists_and_left, exists_eq_left]

lemma isQuoteMark_iff {c : Char} : isQuoteMark c = true ↔ c = '"' ∨ c = '\'' ∨ c = '\x60' := by
  simp [isQuoteMark, or_assoc]

lemma not_blank_of_isQuoteMark {c : Char} (h : isQuoteMark c = true) : isBlank c = false := by
  rcases isQuoteMark_iff.1 h with rfl | rfl | rfl <;> decide

lemma holds_quotedTitle (quote : Char) (index : ℕ)
    (hindex : ∀ capture, titleOf [(index, capture)] = some capture.chars) :
    Holds (quotedTitle quote index) (Enclosing (char quote) (many (· != quote)) (char quote)) titleOf := by
  have hstart : StartsIn (fun c => !(c != quote)) (char quote) := startsIn_one.mono fun c hc => by simpa using hc
  exact holds_enclosing (oneWay_one.append (endsBefore_many.group.append oneWay_one hstart)) (plain_char quote)
    plain_many (plain_char quote) hindex

lemma holds_bracedTitle :
    Holds bracedTitle (Enclosing bracedFront (many fun c => !isQuoteMark c) bracedBack) titleOf := by
  have hmark : StartsIn (fun c => !isBlank c) (one isQuoteMark) :=
    startsIn_one.mono fun c hc => by simp [not_blank_of_isQuoteMark hc]
  have hbrace : StartsIn (fun c => !isBlank c) (char '\x7d') :=
    startsIn_one.mono fun c hc => by rw [eq_of_beq hc]; decide
  have hstop : StartsIn (fun c => !(!isQuoteMark c)) bracedBack :=
    (startsIn_one.append _).mono fun c hc => by simpa using hc
  have hfront : OneWay bracedFront := oneWay_one.append (endsBefore_many.append oneWay_one hmark)
  have hback : OneWay bracedBack := oneWay_one.append (endsBefore_many.append oneWay_one hbrace)
  exact holds_enclosing (hfront.append (endsBefore_many.group.append hback hstop)) (by simp [bracedFront]) plain_many
    (by simp [bracedBack]) fun _ => rfl

lemma enclosing_quotes {quote : Char} {u : List Char} :
    Enclosing (char quote) (many (· != quote)) (char quote) title u ↔
      quote ∉ title ∧ u = quote :: (title ++ [quote]) := by
  have htitle : Spells (many (· != quote)) title ↔ quote ∉ title := by
    simp only [Spells, bne_iff_ne]
    exact ⟨fun h hmem => h _ hmem rfl, fun h c hc => ne_of_mem_of_not_mem hc h⟩
  simp only [Enclosing, spells_char, htitle]
  constructor
  · rintro ⟨_, _, rfl, hnot, rfl, rfl⟩
    exact ⟨hnot, rfl⟩
  · rintro ⟨hnot, rfl⟩
    exact ⟨_, _, rfl, hnot, rfl, rfl⟩

lemma enclosing_braces {u : List Char} :
    Enclosing bracedFront (many fun c => !isQuoteMark c) bracedBack title u ↔ ∃ w o c w', IsSpace w ∧
      isQuoteMark o = true ∧ (∀ d ∈ title, isQuoteMark d = false) ∧ isQuoteMark c = true ∧ IsSpace w' ∧
      u = '\x7b' :: (w ++ o :: (title ++ c :: (w' ++ ['\x7d']))) := by
  simp only [Enclosing, bracedFront, bracedBack, spells_append, spells_char, spells_blanks, Spells,
    Bool.not_eq_true']
  constructor
  · rintro ⟨_, _, ⟨_, _, rfl, ⟨w, _, hw, ⟨o, ho, rfl⟩, rfl⟩, rfl⟩, htitle, ⟨_, _, ⟨c, hc, rfl⟩, ⟨w', _, hw', rfl, rfl⟩,
      rfl⟩, rfl⟩
    exact ⟨w, o, c, w', hw, ho, htitle, hc, hw', by simp⟩
  · rintro ⟨w, o, c, w', hw, ho, htitle, hc, hw', rfl⟩
    exact ⟨_, _, ⟨_, _, rfl, ⟨w, _, hw, ⟨o, ho, rfl⟩, rfl⟩, rfl⟩, htitle, ⟨_, _, ⟨c, hc, rfl⟩, ⟨w', _, hw', rfl, rfl⟩,
      rfl⟩, by simp⟩

/-- The three ways to write a title. -/
lemma titleText_iff {t : List Char} : TitleText title t ↔ ∃ u,
    (Enclosing (char '"') (many (· != '"')) (char '"') title u ∨
      Enclosing (char '\'') (many (· != '\'')) (char '\'') title u ∨
      Enclosing bracedFront (many fun c => !isQuoteMark c) bracedBack title u) ∧ t = "title=".toList ++ u := by
  simp only [enclosing_quotes, enclosing_braces]
  constructor
  · rintro (⟨rfl | rfl, hnot⟩ | ⟨hw, ho, htitle, hc, hw'⟩)
    · exact ⟨_, .inl ⟨hnot, rfl⟩, rfl⟩
    · exact ⟨_, .inr (.inl ⟨hnot, rfl⟩), rfl⟩
    · exact ⟨_, .inr (.inr ⟨_, _, _, _, hw, ho, htitle, hc, hw', rfl⟩), rfl⟩
  · rintro ⟨_, ⟨hnot, rfl⟩ | ⟨hnot, rfl⟩ | ⟨w, o, c, w', hw, ho, htitle, hc, hw', rfl⟩, rfl⟩
    · exact .quoted (.inl rfl) hnot
    · exact .quoted (.inr rfl) hnot
    · exact .braced hw ho htitle hc hw'

lemma holds_titleAttribute : Holds titleAttribute TitleText titleOf := by
  have hkind : TitleText = fun title t => ∃ u, (Enclosing (char '"') (many (· != '"')) (char '"') title u ∨
      Enclosing (char '\'') (many (· != '\'')) (char '\'') title u ∨
      Enclosing bracedFront (many fun c => !isQuoteMark c) bracedBack title u) ∧ t = "title=".toList ++ u := by
    funext title t
    exact propext titleText_iff
  have hdouble : StartsIn (· == '"') (quotedTitle '"' 1) := startsIn_one.append _
  have hsingle : StartsIn (· == '\'') (quotedTitle '\'' 2) := startsIn_one.append _
  have hbraced : StartsIn (· == '\x7b') bracedTitle := (startsIn_one.append _).append _
  have hrest : StartsIn (fun c => c == '\'' || c == '\x7b') (quotedTitle '\'' 2 <|> bracedTitle) :=
    (hsingle.mono fun c hc => by rw [hc]; rfl).orElse (hbraced.mono fun c hc => by rw [hc, Bool.or_true])
  rw [hkind]
  refine ((holds_quotedTitle '"' 1 fun _ => rfl).orElse ((holds_quotedTitle '\'' 2 fun _ => rfl).orElse
    holds_bracedTitle hsingle hbraced fun c hc => ?_) hdouble hrest fun c hc => ?_).text_append "title="
  · rw [eq_of_beq hc]
    decide
  · rw [eq_of_beq hc]
    decide

/-! ## The sections of a page -/

/-- A match of the pattern is the opening of a section up to its first title. -/
lemma sectionAt_of_mem_findAll {found : Match} (hfound : found ∈ sectionPattern.findAll source) :
    ∃ title extent, found.firstOf [1, 2, 3] = some title ∧ SectionAt source found.start title extent ∧
      found.stop = found.start + extent.length := by
  obtain ⟨u, v, rfl, hmatch⟩ := exists_matchAt?_of_mem_findAll hfound
  rw [matchAt?_sectionPattern] at hmatch
  obtain ⟨tag, lead, t, rest, title, rfl, helement, hstart, hstop, hvalue⟩ :=
    isElement_of_matchAt? opens_sectionOpening holds_titleAttribute hmatch
  obtain rfl := helement.opens
  rw [hstart]
  exact ⟨title, _, hvalue, ⟨lead, t, rest, List.drop_left, helement, rfl⟩, hstop⟩

/-- A section is listed where its opening stands, with its first title. -/
lemma sectionAt_of_mem {s : Section} (hs : s ∈ sections source) :
    ∃ extent, SectionAt source s.start s.title extent := by
  obtain ⟨found, hfound, htitle⟩ := List.mem_filterMap.1 hs
  obtain ⟨title, extent, hvalue, hsection, -⟩ := sectionAt_of_mem_findAll hfound
  rw [hvalue, Option.map_some, Option.some.injEq] at htitle
  exact ⟨extent, htitle ▸ hsection⟩

lemma mem_sections_of_mem_findAll {found : Match} (hfound : found ∈ sectionPattern.findAll source)
    (htitle : found.firstOf [1, 2, 3] = some title) : ⟨found.start, title⟩ ∈ sections source :=
  List.mem_filterMap.2 ⟨found, hfound, by rw [htitle]; rfl⟩

/-- Where a section stands its opening is matched, unless the place lies within another match. -/
lemma mem_findAll_or_covered_of_sectionAt {extent : List Char} (h : SectionAt source place title extent) :
    (∃ found ∈ sectionPattern.findAll source, found.start = place ∧ found.stop = place + extent.length ∧
        found.firstOf [1, 2, 3] = some title) ∨
      ∃ m ∈ sectionPattern.findAll source, m.start < place ∧ place < m.stop := by
  obtain ⟨lead, t, rest, hplace, hsection, rfl⟩ := h
  have hlength : (source.take place).length = place := by
    rw [List.length_take, min_eq_left_iff]
    by_contra hlt
    rw [List.drop_eq_nil_of_le (by omega)] at hplace
    cases hplace
  obtain ⟨found, hfound, hstop, hvalue⟩ := matchAt?_of_isElement opens_sectionOpening holds_titleAttribute hsection
    (source.take place).getLast? (source.take place).length
  rw [← matchAt?_sectionPattern, ← hplace] at hfound
  have hstart : found.start = place := (start_of_matchAt? hfound).trans hlength
  have hlisted := mem_findAll_or_covered hfound
  rw [List.take_append_drop, hstart] at hlisted
  rw [hlength] at hstop
  exact hlisted.imp_left fun hmem => ⟨found, hmem, hstart, hstop, hvalue⟩

/-- Where a section stands it is listed, or its place lies within the opening of one that is listed. -/
lemma mem_or_covered_of_sectionAt {extent : List Char} (h : SectionAt source place title extent) :
    ⟨place, title⟩ ∈ sections source ∨ ∃ s ∈ sections source, ∃ extent,
      SectionAt source s.start s.title extent ∧ s.start < place ∧ place < s.start + extent.length := by
  rcases mem_findAll_or_covered_of_sectionAt h with ⟨found, hmem, hstart, -, hvalue⟩ | ⟨m, hm, hbefore, hbehind⟩
  · exact .inl (hstart ▸ mem_sections_of_mem_findAll hmem hvalue)
  · obtain ⟨title', extent, hvalue', hsection', hstop⟩ := sectionAt_of_mem_findAll hm
    exact .inr ⟨_, mem_sections_of_mem_findAll hm hvalue', extent, hsection', hbefore, hstop ▸ hbehind⟩

/-- The sections are listed in the order in which they start. -/
lemma pairwise_sections (source : List Char) : (sections source).Pairwise fun s s' => s.start < s'.start := by
  have hnonempty : ∀ m ∈ sectionPattern.findAll source, m.start < m.stop := by
    intro m hm
    obtain ⟨title, extent, -, ⟨lead, t, rest, -, -, rfl⟩, hstop⟩ := sectionAt_of_mem_findAll hm
    rw [hstop]
    simp
  rw [sections, List.pairwise_filterMap]
  refine (pairwise_start_findAll hnonempty).imp ?_
  intro m m' hlt s hs s' hs'
  obtain ⟨title, -, rfl⟩ := Option.map_eq_some_iff.1 hs
  obtain ⟨title', -, rfl⟩ := Option.map_eq_some_iff.1 hs'
  exact hlt

/-! ## The section before a place -/

/-- The last section of a page that starts before a place. -/
def IsLastBefore (source : List Char) (place : ℕ) (s : Section) : Prop :=
  s ∈ sections source ∧ s.start < place ∧ ∀ s' ∈ sections source, s'.start < place → s'.start ≤ s.start

lemma takeWhile_eq_filter {headings : List Section} (h : headings.Pairwise fun s s' => s.start < s'.start) (place : ℕ) :
    headings.takeWhile (fun s => s.start < place) = headings.filter fun s => s.start < place := by
  induction headings with
  | nil => rfl
  | cons s headings ih =>
    obtain ⟨hs, hheadings⟩ := List.pairwise_cons.1 h
    by_cases hplace : s.start < place
    · rw [List.takeWhile_cons_of_pos (by simpa using hplace), List.filter_cons_of_pos (by simpa using hplace),
        ih hheadings]
    · rw [List.takeWhile_cons_of_neg (by simpa using hplace), List.filter_cons_of_neg (by simpa using hplace)]
      refine (List.filter_eq_nil_iff.2 fun s' hs' => ?_).symm
      have hlt := hs s' hs'
      simp only [decide_eq_true_eq]
      omega

lemma titleBefore?_eq_none : titleBefore? (sections source) place = none ↔ ∀ s ∈ sections source, place ≤ s.start := by
  rw [titleBefore?, takeWhile_eq_filter (pairwise_sections source), Option.map_eq_none_iff, List.getLast?_eq_none_iff,
    List.filter_eq_nil_iff]
  simp

lemma titleBefore?_eq_some (h : titleBefore? (sections source) place = some title) :
    ∃ s, IsLastBefore source place s ∧ s.title = title := by
  rw [titleBefore?, takeWhile_eq_filter (pairwise_sections source)] at h
  obtain ⟨s, hlast, rfl⟩ := Option.map_eq_some_iff.1 h
  obtain ⟨before, hbefore⟩ := List.getLast?_eq_some_iff.1 hlast
  have hpairwise : (before ++ [s]).Pairwise fun s s' => s.start < s'.start := by
    rw [← hbefore]
    exact (pairwise_sections source).filter _
  have hmem (s' : Section) : s' ∈ before ++ [s] ↔ s' ∈ sections source ∧ s'.start < place := by
    rw [← hbefore, List.mem_filter, decide_eq_true_eq]
  obtain ⟨hs, hplace⟩ := (hmem s).1 (by simp)
  refine ⟨s, ⟨hs, hplace, fun s' hs' hplace' => ?_⟩, rfl⟩
  rcases List.mem_append.1 ((hmem s').2 ⟨hs', hplace'⟩) with hin | hin
  · exact ((List.pairwise_append.1 hpairwise).2.2 s' hin s (List.mem_singleton_self s)).le
  · rw [List.mem_singleton.1 hin]

end UiCatalog.Demo
