import UiCatalog.Demo.Section
import UiCatalog.Text.Case

/-!
# The property table of a demo page

The section titled `Props` holds a table of properties, written with table elements or with bars. A row
counts when it has four cells and a name.
-/
namespace UiCatalog.Demo

open Text Pattern

/-- One row of a property table. -/
structure PropertyRow where
  name : String
  type : String
  /-- The default column; a dash stands for none. -/
  default : String
  description : String
  deriving DecidableEq, Repr

/-- An element of the given name; group 1 is its content, up to the first closing tag. -/
def element (name : String) : Pattern :=
  text "<" ++ text name ++ wordEdge ++ many (· != '>') ++ char '>' ++ group 1 (few anyChar) ++
    text "</" ++ text name ++ char '>'

/-- A row made of exactly four cells, of which the first is not empty. -/
def row? : List (List Char) → Option PropertyRow
  | [name, type, default, description] =>
    if name.isEmpty then none
    else some ⟨String.ofList name, String.ofList type, String.ofList default, String.ofList description⟩
  | _ => none

/-- The rows written as table elements. -/
def elementRows (region : List Char) : List PropertyRow :=
  ((element "tr").findAll region).filterMap fun row =>
    row? (((element "td").findAll (row.get 1)).map fun cell => plainText (cell.get 1))

/-- The text without the character `c` at both ends. -/
def trimChar (c : Char) (s : List Char) : List Char :=
  ((s.dropWhile (· == c)).reverse.dropWhile (· == c)).reverse

/-- The cells of a line of the table written with bars. -/
def barCells (line : List Char) : List (List Char) :=
  (splitAt '|' (trimChar '|' line)).map fun cell => plainText (trimChar '\x60' (trim cell))

/-- A line that only draws the rule under the header. -/
def isRule (cells : List (List Char)) : Bool := cells.all fun cell => cell.all fun c => c == '-' || c == ':'

/-- A line whose first cell is a column title. -/
def isHeader (cells : List (List Char)) : Bool :=
  cells.head?.any fun c => lower c == "prop".toList || lower c == "name".toList

def barRows (region : List Char) : List PropertyRow :=
  (((lines region).map trim).filter fun line => line.head? == some '|').filterMap fun line =>
    let cells := barCells line
    if isRule cells || isHeader cells then none else row? cells

def isPropsTitle (title : List Char) : Bool := asciiLower (trim title) == "props".toList

/-- The rows of the property table; bars are read only where there are no table elements. -/
def propertyRows (source : List Char) : List PropertyRow :=
  match region? isPropsTitle source with
  | none => []
  | some region =>
    let rows := elementRows region
    if rows.isEmpty then barRows region else rows

end UiCatalog.Demo
