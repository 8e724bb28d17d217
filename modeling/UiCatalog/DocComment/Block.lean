import UiCatalog.DocComment.FieldTag
import UiCatalog.Pattern

/-!
# Doc comments

A doc comment holds description lines and field tags. `DocBlock.parse` reads the body of one, and
`DocBlock.attached?` finds the one that stands right before the declaration of a component.
-/
namespace UiCatalog

/-- The content of a doc comment. -/
structure DocBlock where
  /-- The lines that are no tags, with single spaces between them. -/
  description : String
  fields : List FieldTag
  deriving DecidableEq, Repr

namespace DocBlock

open Text Pattern Code

/-- A line of a comment body without the star before it. -/
def unfence (line : List Char) : List Char :=
  match trimStart line with
  | '*' :: rest => trim rest
  | rest => trim rest

/-- The lines of a comment body that hold something. -/
def contentLines (body : List Char) : List (List Char) :=
  ((lines body).map unfence).filter fun line => !line.isEmpty

def isTag (line : List Char) : Bool := line.head? == some '@'

/-- Reads the body of a doc comment. Tags that are no field tags are left out. -/
def parse (body : List Char) : DocBlock :=
  let content := contentLines body
  { description := String.ofList (join [' '] (content.filter fun line => !isTag line))
    fields := (content.filter isTag).filterMap FieldTag.parse? }

/-- A doc comment; group 1 is its body, which holds no comment end. -/
def commentPattern : Pattern :=
  text "/**" ++
    group 1 (repeated (one (noneOf "*") <|> (many1 (· == '*') ++ one (noneOf "*/")))) ++
    many1 (· == '*') ++ char '/'

/-- What a binding must be bound to for its comment to count. -/
def componentValue : Pattern :=
  (qualifier ++ (text "forwardRef" <|> text "memo") ++ wordEdge) <|> wholeWord "function" <|>
    wholeWord "async" <|> char '(' <|> (identifier ++ blanks ++ arrow)

/-- The declaration of `name` as a function or as a binding to a component. -/
def declarationPattern (name : String) : Pattern :=
  (optional (text "async" ++ gap) ++ text "function" ++ gap ++ text name ++ wordEdge) <|>
    (bindingKeyword ++ gap ++ text name ++ annotatedEquals ++ blanks ++ componentValue)

/-- A doc comment with the declaration of `name` right behind it. -/
def attachedPattern (name : String) : Pattern :=
  commentPattern ++ blanks ++ optional (text "export" ++ gap) ++ optional (text "default" ++ gap) ++
    declarationPattern name

/-- The doc comment of the declaration of `name`. -/
def attached? (source : List Char) (name : String) : Option DocBlock :=
  ((attachedPattern name).find? source).map fun found => parse (found.get 1)

end DocBlock

end UiCatalog
