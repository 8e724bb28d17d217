import UiCatalog.DocComment.FieldTag
import UiCatalog.Proofs.Matching
import UiCatalog.Proofs.Blanks

/-!
# Field tags as they are written

The line of a field tag is a tag, a type in braces, a written name, and a remark. Which part of a line is the
written name has one answer, so a line is read as its parts, or it is no field tag at all.
-/
namespace UiCatalog.FieldTag

open Text Pattern

/-! ## Lines -/

def keywords : List String := ["param", "prop", "property"]

/-- The name with its container. -/
def path (f : FieldTag) : List Char :=
  match f.container with
  | some container => container.toList ++ '.' :: f.name.toList
  | none => f.name.toList

def givenDefault (f : FieldTag) : List Char :=
  match f.default? with
  | some value => '=' :: value.toList
  | none => []

def writtenName (f : FieldTag) : List Char :=
  if f.optional then '[' :: (f.path ++ f.givenDefault ++ [']']) else f.path

def remark (f : FieldTag) : List Char :=
  if f.description.toList = [] then [] else " - ".toList ++ f.description.toList

def line (keyword : String) (f : FieldTag) : List Char :=
  '@' :: (keyword.toList ++ (' ' :: '\x7b' :: (f.type.toList ++ '\x7d' :: ' ' :: (f.writtenName ++ f.remark))))

/-- A tag whose parts can be told apart in its line. -/
structure Writable (f : FieldTag) : Prop where
  name : f.name.toList ≠ [] ∧ ∀ c ∈ f.name.toList, isBlank c = false ∧ c ∉ ['.', '=', '[', ']']
  container : ∀ container ∈ f.container,
    container.toList ≠ [] ∧ ∀ c ∈ container.toList, isBlank c = false ∧ c ∉ ['=', '[', ']']
  type : trim f.type.toList = f.type.toList ∧ '\x7d' ∉ f.type.toList ∧ '\n' ∉ f.type.toList
  description : trim f.description.toList = f.description.toList ∧ '\n' ∉ f.description.toList
  default? : ∀ value ∈ f.default?, f.optional = true ∧ value.toList ≠ [] ∧ trim value.toList = value.toList ∧
    ']' ∉ value.toList ∧ '\n' ∉ value.toList

/-- The text begins with something in brackets. -/
def Bracketed (t : List Char) : Prop := ∃ inner rest, inner ≠ [] ∧ ']' ∉ inner ∧ t = '[' :: (inner ++ ']' :: rest)

/-- Before `rest` the written name is something in brackets, or else everything up to the next blank. -/
inductive NameText : List Char → List Char → Prop
  | bracketed {inner rest} : inner ≠ [] → ']' ∉ inner → NameText ('[' :: (inner ++ [']'])) rest
  | run {written rest} : IsRun written → (∀ c ∈ rest.head?, isBlank c = true) → ¬ Bracketed (written ++ rest) →
      NameText written rest

/-- A line with a tag, a type in braces, a written name, and a rest. -/
def TagText (type written rest t : List Char) : Prop :=
  ∃ keyword ∈ keywords, ∃ w w', IsSpace w ∧ w ≠ [] ∧ IsSpace w' ∧ w' ≠ [] ∧ '\x7d' ∉ type ∧ NameText written rest ∧
    t = '@' :: (keyword.toList ++ (w ++ '\x7b' :: (type ++ '\x7d' :: (w' ++ (written ++ rest)))))

/-- A line with a tag that is no field tag: it has another shape, or its written name is no name. -/
def OtherTag (t : List Char) : Prop :=
  t.head? = some '@' ∧ ∀ type written rest, TagText type written rest t →
    (splitContainer (trim (readName written).1)).2 = []

variable {f : FieldTag} {t u w type written rest inner : List Char} {c : Char} {β : Type} {next : Point → Option β}
  {r : β} {place : Point}

/-! ## The written name -/

lemma isRun_path (h : f.Writable) : IsRun f.path := by
  have hname : ∀ c ∈ f.name.toList, isBlank c = false := fun c hc => (h.name.2 c hc).1
  rw [path]
  cases hcontainer : f.container with
  | none => exact ⟨h.name.1, hname⟩
  | some container =>
    have hin : ∀ c ∈ container.toList, isBlank c = false := fun c hc => ((h.container container hcontainer).2 c hc).1
    refine ⟨by simp, ?_⟩
    simp only [List.forall_mem_append, List.forall_mem_cons]
    exact ⟨hin, by decide, hname⟩

lemma trim_cons_append (hc : isBlank c = false) (t : List Char) (hu : trim u = u) (hne : u ≠ []) :
    trim (c :: (t ++ u)) = c :: (t ++ u) := by
  obtain ⟨us, d, rfl, hd⟩ := exists_last_of_trim hu hne
  rw [← List.append_assoc]
  exact trim_enclosed hc hd (t ++ us)

lemma trim_line (h : f.Writable) (keyword : String) : trim (f.line keyword) = f.line keyword := by
  have hat : isBlank '@' = false := by decide
  have hpath := isRun_path h
  let lead := keyword.toList ++ (' ' :: '\x7b' :: (f.type.toList ++ ['\x7d', ' ']))
  have hline : f.line keyword = '@' :: (lead ++ (f.writtenName ++ f.remark)) := by simp [line, lead]
  rw [hline, remark]
  split_ifs with hne
  · rw [List.append_nil, writtenName]
    split_ifs with hoptional
    · have hlead := trim_cons_append hat (lead ++ '[' :: (f.path ++ f.givenDefault)) (u := [']']) (by decide) (by simp)
      simpa using hlead
    · exact trim_cons_append hat lead (trim_of_isRun hpath) hpath.1
  · have hlead := trim_cons_append hat (lead ++ (f.writtenName ++ " - ".toList)) h.description.1 hne
    simpa using hlead

end UiCatalog.FieldTag
