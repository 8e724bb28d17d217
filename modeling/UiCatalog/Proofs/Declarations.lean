import UiCatalog.Proofs.VariantBindings

/-!
# Texts of declarations

How the pieces of a declaration are written, and that the patterns for them lead on along such texts. Where a word
has to end depends on what follows it.
-/
namespace UiCatalog.Code

open Text Pattern VariantConfig

variable {name head xs rest : List Char} {p q : Point}

/-! ## Gaps, names and ends -/

/-- At least one blank. -/
def IsGap (w : List Char) : Prop := IsSpace w ∧ w ≠ []

/-- The whole of an identifier, in any script. -/
def IsName (name : List Char) : Prop := name ≠ [] ∧ ∀ c ∈ name, isIdentifierPart c = true

/-- No identifier goes on at the start of the text. -/
def NameEnds (t : List Char) : Prop := ∀ c ∈ t.head?, isIdentifierPart c = false

/-- No word goes on at the start of the text. -/
def WordEnds (t : List Char) : Prop := ∀ c ∈ t.head?, isWord c = false

lemma NameEnds.wordEnds {t : List Char} (h : NameEnds t) : WordEnds t := by
  intro c hc
  have hpart := h c hc
  rw [isIdentifierPart, Bool.or_eq_false_iff] at hpart
  exact hpart.1

lemma spells_gap_iff : Spells gap xs ↔ IsGap xs := by
  refine ⟨spells_gap, fun ⟨hspace, hne⟩ => ?_⟩
  obtain ⟨c, cs, rfl⟩ := List.exists_cons_of_ne_nil hne
  obtain ⟨hc, hcs⟩ := List.forall_mem_cons.1 hspace
  exact ⟨[c], cs, ⟨c, hc, rfl⟩, hcs, rfl⟩

lemma spells_identifier_iff : Spells identifier xs ↔ IsIdentifier xs := by
  refine ⟨spells_identifier, ?_⟩
  rintro ⟨c, cs, hc, hcs, rfl⟩
  exact ⟨[c], cs, ⟨c, hc, rfl⟩, hcs, rfl⟩

/-- What may stand before an optional piece is there or is not. -/
lemma spells_optional {pattern : Pattern} : Spells (Pattern.optional pattern) xs ↔ Spells pattern xs ∨ xs = [] :=
  Iff.rfl

@[simp] lemma plain_optional {pattern : Pattern} : Plain (Pattern.optional pattern) ↔ Plain pattern :=
  ⟨And.left, fun h => ⟨h, trivial⟩⟩

@[simp] lemma plain_char (c : Char) : Plain (Pattern.char c) := trivial

@[simp] lemma plain_gap : Plain gap := ⟨trivial, trivial⟩

@[simp] lemma plain_blanks : Plain blanks := trivial

@[simp] lemma plain_identifier : Plain identifier := ⟨trivial, trivial⟩

@[simp] lemma plain_bindingKeyword : Plain bindingKeyword := by simp [bindingKeyword]

@[simp] lemma plain_annotatedEquals : Plain annotatedEquals := by simp [annotatedEquals]

@[simp] lemma plain_qualifier : Plain qualifier := by simp [qualifier]

lemma spells_qualifier : Spells qualifier xs ↔ xs = [] ∨ xs = "React.".toList := by
  rw [qualifier, spells_optional, spells_text, or_comm]

/-! ## Words -/

/-- One of two texts ends, or the other starts, with a word character, and not both. -/
def EdgeBetween (t u : List Char) : Prop := t.getLast?.any isWord ≠ u.head?.any isWord

/-- Behind a word character, a word edge is where the word ends. -/
lemma edgeBetween_iff (h : ∀ c ∈ xs.getLast?, isWord c = true) (hne : xs ≠ []) :
    EdgeBetween xs rest ↔ WordEnds rest := by
  have hc := List.getLast?_eq_some_getLast hne
  have hword := h _ hc
  simp only [EdgeBetween, hc, Option.any_some, hword, WordEnds]
  cases rest.head? <;> simp

lemma atWordEdge_over (hne : xs ≠ []) : (p.over xs rest).atWordEdge = true ↔ EdgeBetween xs rest := by
  simp only [Point.atWordEdge, Point.over, EdgeBetween, bne_iff_ne]
  rw [List.getLast?_eq_some_getLast hne, Option.some_or]

lemma edgeBetween_append (t : List Char) (hne : xs ≠ []) : EdgeBetween (t ++ xs) rest ↔ EdgeBetween xs rest := by
  rw [EdgeBetween, EdgeBetween, List.getLast?_append_of_ne_nil t hne]

lemma groupFree_wholeWord (word : String) : GroupFree (wholeWord word) := ⟨(plain_text word).groupFree, trivial⟩

lemma reaches_wholeWord (word : String) (h : ∀ c ∈ word.toList.getLast?, isWord c = true) (hne : word.toList ≠ []) :
    Reaches (wholeWord word) p q ↔
      ∃ rest, p.rest = word.toList ++ rest ∧ WordEnds rest ∧ q = p.over word.toList rest := by
  rw [wholeWord, reaches_append]
  simp only [reaches_iff_of_plain (plain_text word), spells_text]
  constructor
  · rintro ⟨_, ⟨_, rest, rfl, hp, rfl⟩, hedge, rfl⟩
    exact ⟨rest, hp, (edgeBetween_iff h hne).1 ((atWordEdge_over hne).1 hedge), rfl⟩
  · rintro ⟨rest, hp, hends, rfl⟩
    exact ⟨_, ⟨_, rest, rfl, hp, rfl⟩, (atWordEdge_over hne).2 ((edgeBetween_iff h hne).2 hends), rfl⟩

/-! ## Bindings -/

/-- A binding up to what it is bound to, maybe with a type annotation, which ends at the first equals sign. -/
def BindingHead (name t : List Char) : Prop :=
  ∃ keyword w u ascription v, keyword ∈ keywords ∧ IsGap w ∧ IsSpace u ∧
    (ascription = [] ∨ ∃ type, '=' ∉ type ∧ ascription = ':' :: type) ∧ IsSpace v ∧
    t = keyword ++ (w ++ (name ++ (u ++ (ascription ++ '=' :: v))))

/-- No name goes on where a binding does. -/
lemma nameEnds_of_bindingTail {u ascription v : List Char} (hu : IsSpace u)
    (hascription : ascription = [] ∨ ∃ type, '=' ∉ type ∧ ascription = ':' :: type) :
    NameEnds (u ++ (ascription ++ '=' :: v)) := by
  cases u with
  | nil =>
    rcases hascription with rfl | ⟨type, -, rfl⟩ <;> simp [NameEnds] <;> decide
  | cons c u =>
    simpa [NameEnds] using not_part_of_isSpace hu c List.mem_cons_self

/-- The pattern of a binding up to what it is bound to. -/
def bindingHead (name : String) : Pattern := bindingKeyword ++ gap ++ text name ++ annotatedEquals ++ blanks

@[simp] lemma plain_bindingHead (name : String) : Plain (bindingHead name) := by simp [bindingHead]

lemma spells_annotatedEquals : Spells annotatedEquals xs ↔ ∃ u ascription, IsSpace u ∧
    (ascription = [] ∨ ∃ type, '=' ∉ type ∧ ascription = ':' :: type) ∧ xs = u ++ (ascription ++ ['=']) := by
  have hascription {ys : List Char} : Spells (Pattern.optional (Pattern.char ':' ++ many (noneOf "="))) ys ↔
      ys = [] ∨ ∃ type, '=' ∉ type ∧ ys = ':' :: type := by
    rw [spells_optional, spells_append, or_comm]
    simp only [spells_char, spells_many_noneOf (s := "=") rfl]
    refine or_congr Iff.rfl ⟨?_, ?_⟩
    · rintro ⟨_, type, rfl, htype, rfl⟩
      exact ⟨type, htype, rfl⟩
    · rintro ⟨type, htype, rfl⟩
      exact ⟨[':'], type, rfl, htype, rfl⟩
  simp only [annotatedEquals, spells_append, spells_blanks, hascription, spells_char]
  constructor
  · rintro ⟨_, _, ⟨u, ascription, hu, hascription, rfl⟩, rfl, rfl⟩
    exact ⟨u, ascription, hu, hascription, by simp⟩
  · rintro ⟨u, ascription, hu, hascription, rfl⟩
    exact ⟨_, _, ⟨u, ascription, hu, hascription, rfl⟩, rfl, by simp⟩

lemma spells_bindingHead {name : String} : Spells (bindingHead name) xs ↔ BindingHead name.toList xs := by
  simp only [bindingHead, spells_append, spells_bindingKeyword, spells_gap_iff, spells_text, spells_annotatedEquals,
    spells_blanks]
  constructor
  · rintro ⟨_, v, ⟨_, _, ⟨_, _, ⟨keyword, w, hk, hw, rfl⟩, rfl, rfl⟩, ⟨u, ascription, hu, hascription, rfl⟩, rfl⟩, hv,
      rfl⟩
    exact ⟨keyword, w, u, ascription, v, hk, hw, hu, hascription, hv, by simp⟩
  · rintro ⟨keyword, w, u, ascription, v, hk, hw, hu, hascription, hv, rfl⟩
    exact ⟨_, v, ⟨_, _, ⟨_, _, ⟨keyword, w, hk, hw, rfl⟩, rfl, rfl⟩, ⟨u, ascription, hu, hascription, rfl⟩, rfl⟩, hv,
      by simp⟩

end UiCatalog.Code
