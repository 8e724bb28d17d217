import UiCatalog.DocComment.Block
import UiCatalog.Proofs.FieldTags

/-!
# Doc comments as they are written

The body of a doc comment holds description lines and tags, one a line, with white space and a star before them
and blank lines between them. However they are laid out, the body is read as its description and its fields.
-/
namespace UiCatalog.DocBlock

open Text

/-! ## Layouts -/

/-- What stands in one line of a doc comment. -/
inductive Item where
  | description (text : List Char)
  | field (keyword : String) (tag : FieldTag)
  | other (text : List Char)

namespace Item

def text : Item → List Char
  | description text => text
  | field keyword tag => tag.line keyword
  | other text => text

def field? : Item → Option FieldTag
  | field _ tag => some tag
  | _ => none

def Writable : Item → Prop
  | description text =>
    trim text = text ∧ text ≠ [] ∧ '\n' ∉ text ∧ text.head? ≠ some '@' ∧ text.head? ≠ some '*'
  | field keyword tag => keyword ∈ FieldTag.keywords ∧ tag.Writable
  | other text => trim text = text ∧ '\n' ∉ text ∧ FieldTag.OtherTag text

end Item

variable {items : List Item} {x : Item} {t u w body line : List Char} {ls : List (List Char)}

/-! ## Lines -/

lemma Item.trim_text (h : x.Writable) : trim x.text = x.text := by
  cases x with
  | description text => exact h.1
  | field keyword tag => exact FieldTag.trim_line h.2 keyword
  | other text => exact h.1

end UiCatalog.DocBlock
