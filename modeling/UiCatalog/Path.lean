import UiCatalog.Text.Blank

/-!
# Paths

A path is a text; its pieces stand between slashes. Its components are what the pieces mean: empty pieces
and a `.` that does not come first mean nothing.
-/
namespace UiCatalog

/-- A path as it is written. -/
structure Path where
  text : String
  deriving DecidableEq, Repr

namespace Path

open Text

/-- A step of a path. -/
inductive Component where
  | root
  | current
  | parent
  | name (s : String)
  deriving DecidableEq, Repr

/-- The step as it is written; the root is written as a slash. -/
def Component.text : Component → String
  | root => "/"
  | current => "."
  | parent => ".."
  | name s => s

def isAbsolute (p : Path) : Bool := p.text.toList.head? == some '/'

/-- `q` as seen from `p`: after a slash, unless `p` is empty or has one at its end. -/
def join (p q : Path) : Path :=
  if q.isAbsolute || p.text.isEmpty then q
  else if p.text.toList.getLast? = some '/' then ⟨p.text ++ q.text⟩
  else ⟨p.text ++ "/" ++ q.text⟩

/-- The pieces between slashes; there is always at least one. -/
def pieces (p : Path) : List String := (splitAt '/' p.text.toList).map String.ofList

/-- The piece stands for no step, unless it comes first. -/
def isIdle (piece : String) : Bool := piece == "" || piece == "."

/-- What a piece that does not come first stands for. -/
def step? (piece : String) : Option Component :=
  if isIdle piece then none else if piece = ".." then some .parent else some (.name piece)

/-- What the first piece stands for. -/
def firstStep? (absolute : Bool) (piece : String) : Option Component :=
  if absolute then some .root else if piece = "." then some .current else step? piece

def components (p : Path) : List Component :=
  match p.pieces with
  | [] => []
  | first :: rest => (firstStep? p.isAbsolute first).toList ++ rest.filterMap step?

/-- The last component, if it is a name. -/
def fileName? (p : Path) : Option String :=
  match p.components.getLast? with
  | some (.name s) => some s
  | _ => none

/-- The pieces without those at the end that stand for no step. -/
def dropIdle (pieces : List String) : List String := (pieces.reverse.dropWhile isIdle).reverse

/-- The text of a path with the given pieces. -/
def ofPieces (first : String) (rest : List String) : Path :=
  if first = "" ∧ rest = [] then ⟨"/"⟩ else ⟨"/".intercalate (first :: rest)⟩

/-- The path without its last component; there is none for a root or an empty path. -/
def parent? (p : Path) : Option Path :=
  match p.pieces with
  | [] => none
  | first :: rest =>
    match dropIdle rest with
    | [] => if first = "" then none else some ⟨""⟩
    | steps => some (ofPieces first (dropIdle steps.dropLast))

/-- The components of `p` below `base`, or all of them if `p` does not begin with `base`. -/
def componentsBelow (base p : Path) : List Component :=
  if base.components.isPrefixOf p.components then p.components.drop base.components.length
  else p.components

/-- The components of `p` below `base`, with slashes between them. -/
def relativeText (base p : Path) : String :=
  "/".intercalate ((componentsBelow base p).map Component.text)

/-- The path of an entry of the directory `p`; entries of `.` are named alone. -/
def entry (p : Path) (name : String) : Path := if p.text = "." then ⟨name⟩ else p.join ⟨name⟩

/-- The path under which the entries of a directory are listed, when the pieces are entered one after the
other. There is none if an empty piece comes where only `.` has been entered. -/
def listed? (p : Path) : Option Path :=
  let entered (steps : List String) (origin : Path) : Option Path :=
    steps.foldlM (fun q piece => if q.text = "." ∧ piece = "" then none else some (q.entry piece)) origin
  if p.isAbsolute then entered (p.pieces.drop 1) ⟨"/"⟩ else entered p.pieces ⟨"."⟩

end Path

end UiCatalog
