import UiCatalog.Demo.Page

/-!
# Descriptors with demo pages

What the source says is kept; a demo page only fills gaps. The examples, however, are always those of the
demo page.
-/
namespace UiCatalog.Descriptor

open Text

def isBlankString (s : String) : Bool := isBlankText s.toList

/-- The default column of a row, unless it is blank or a dash. -/
def rowDefault? (column : String) : Option String :=
  let value := trim column.toList
  if value.isEmpty || value == ['-'] then none else some column

def ofRow (row : Demo.PropertyRow) : Property :=
  { name := row.name
    type := row.type
    description := row.description
    default? := rowDefault? row.default }

/-- A property whose description, if it is blank, is taken from a table row. -/
def describe (description : String) (p : Property) : Property :=
  if isBlankString p.description then { p with description } else p

/-- The properties with one table row folded in. -/
def mergeRow (ps : List Property) (row : Demo.PropertyRow) : List Property :=
  if ps.any (·.name == row.name) then updateFirst row.name (describe row.description) ps
  else ps ++ [ofRow row]

/-- The descriptor with a demo page folded in; without one it has no examples. -/
def mergeDemo (d : Descriptor) : Option DemoPage → Descriptor
  | none => { d with examples := [] }
  | some page =>
    { d with
      examples := page.examples
      description := if isBlankString d.description then page.description.getD d.description
        else d.description
      properties := page.rows.foldl mergeRow d.properties }

end UiCatalog.Descriptor
