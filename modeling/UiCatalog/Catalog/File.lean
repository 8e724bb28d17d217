import UiCatalog.Catalog
import UiCatalog.FileTree
import UiCatalog.Log

/-!
# Catalog files

A catalog is kept in one file, whose directories are made when it is written.
-/
namespace UiCatalog

/-- Why a catalog cannot be made, kept or taken from its file. -/
inductive CatalogError where
  | unreadable (path : Path)
  | unwritable (path : Path)
  | noComponents (directory : Path)
  | malformed (path : Path)
  deriving DecidableEq, Repr

def CatalogError.message : CatalogError → String
  | unreadable path => "Failed to read file: " ++ path.text
  | unwritable path => "Failed to write file: " ++ path.text
  | noComponents directory => "Components directory not found: " ++ directory.text
  | malformed path => "Failed to parse catalog: " ++ path.text

namespace Catalog

def ofFile (t : FileTree) (path : Path) : Except CatalogError Catalog :=
  match t.text? path with
  | none => .error (.unreadable path)
  | some text =>
    match ofText? text with
    | none => .error (.malformed path)
    | some catalog => .ok catalog

/-- The tree with the directories for a file, or the directory that cannot be made, in which case those
before it are there nevertheless. -/
def makeParent (t : FileTree) (path : Path) : FileTree × Option Path :=
  match path.parent?.filter fun parent => !parent.text.isEmpty with
  | none => (t, none)
  | some parent =>
    let (t, made) := t.makeDirectories parent
    (t, if made then none else some parent)

def savedEvent (catalog : Catalog) (path : Path) : Log.Event where
  level := .info
  topic := .gathering
  message := "Catalog written"
  fields := [("path", .bare path.text), ("components", .number catalog.totalComponents)]

/-- The tree with the catalog in a file, and why it is not there. -/
def save (catalog : Catalog) (path : Path) (t : FileTree) :
    FileTree × Except CatalogError Unit × List Log.Event :=
  match makeParent t path with
  | (t, some parent) => (t, .error (.unwritable parent), [])
  | (t, none) =>
    match t.write? path (Text.Utf8.encode catalog.fileText) with
    | none => (t, .error (.unwritable path), [])
    | some t => (t, .ok (), [catalog.savedEvent path])

end Catalog

end UiCatalog
