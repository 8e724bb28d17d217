import UiCatalog.FileTree
import UiCatalog.Text.Case

/-!
# Names and files of components

A component directory is named in lower case with separators; its component has the parts' names with
capitals, one after the other. The source of the component is looked for under this name, under the name of the
directory and as an index, with the extensions from the best one on.
-/
namespace UiCatalog

open Text

def isNameSeparator (c : Char) : Bool := c == '-' || c == '_' || c == ' '

/-- The text without separators; what follows one, or the start, has a capital. -/
def capitaliseAfter (atStart : Bool) : List Char → List Char
  | [] => []
  | c :: cs =>
    if isNameSeparator c then capitaliseAfter true cs
    else (if atStart then upperChar c else [c]) ++ capitaliseAfter false cs

/-- The name of the component in a directory: `alert-dialog` holds `AlertDialog`. -/
def componentName (directory : String) : String :=
  String.ofList (capitaliseAfter true directory.toList)

namespace Project

/-- The extensions of sources, best first. -/
def sourceExtensions : List String := ["tsx", "jsx", "ts", "js"]

/-- The extensions of demo pages, best first. -/
def demoExtensions : List String := ["jsx", "tsx", "js", "mdx"]

/-- The files of a directory with one of the stems and one of the extensions, best stem first. -/
def candidates (directory : Path) (stems extensions : List String) : List Path :=
  stems.flatMap fun stem => extensions.map fun extension => directory.join ⟨stem ++ "." ++ extension⟩

/-- The directory's own name, if it has one. -/
def stem (directory : Path) : String := directory.fileName?.getD ""

def source? (t : FileTree) (directory : Path) (name : String) : Option Path :=
  (candidates directory [name, stem directory, "index"] sourceExtensions).find? t.isFile

end Project

end UiCatalog
