import UiCatalog.Code.Bracket
import UiCatalog.Pattern

/-!
# Destructured parameters

A component takes its properties apart in its first parameter: `(\x7b size = 'md', ...rest })`.
`destructuredParameters` lists the names and defaults of that pattern, and `destructuredDefault?` looks one
default up anywhere in the source.
-/
namespace UiCatalog

namespace Parameters

open Text Pattern Code

/-- A default as it is shown: a string literal in single quotes, any other expression as written. -/
def showLiteral (value : List Char) : List Char :=
  match unquote? value with
  | some inner => ['\''] ++ inner ++ ['\'']
  | none => value

/-- A simple value: a string literal or a run of characters that could not end an entry. -/
def simpleValue : Pattern :=
  let quoted (quote : Char) := char quote ++ many (· != quote) ++ char quote
  quoted '\'' <|> quoted '"' <|> quoted '\x60' <|>
    many1 fun c => noneOf ",\x7b\x7d()=>" c && !isBlank c

/-- An entry of a parameter pattern that gives `name` a simple default, which is group 1. -/
def defaultPattern (name : String) : Pattern :=
  one (fun c => c == '\x7b' || c == ',' || c == '(') ++ blanks ++ text name ++ blanks ++ char '=' ++
    blanks ++ group 1 simpleValue

/-- The declaration of `name` up to the brace that opens its first parameter. -/
def openingPattern (name : String) : Pattern :=
  let wrapper := (text "forwardRef" <|> text "memo") ++ blanks ++ typeArguments ++ blanks ++
    char '(' ++ blanks
  let functionKeyword := text "function" ++ blanks ++ many isIdentifierPart ++ blanks
  ((text "function" ++ gap ++ text name ++ blanks ++ typeArguments ++ blanks ++ char '(') <|>
    (bindingKeyword ++ gap ++ text name ++ annotatedEquals ++ blanks ++ qualifier ++
      optional wrapper ++ optional functionKeyword ++ char '(')) ++
    blanks ++ char '\x7b'

/-- The part before the first `c`, or all of the text. -/
def before (c : Char) (s : List Char) : List Char := s.takeWhile (· != c)

/-- One entry of the pattern: the name that callers use and the default, as it is shown. -/
def readEntry (piece : List Char) : Option (String × Option String) :=
  let entry := trim piece
  if isSpread entry then none
  else
    let default? := if entry.contains '=' then
        some (showLiteral (trim ((entry.dropWhile (· != '=')).drop 1)))
      else none
    let name := trim (before ':' (before '=' entry))
    if name.isEmpty then none else some (String.ofList name, default?.map String.ofList)

end Parameters

open Parameters in
/-- The names and defaults of the first parameter in the declaration of `name`, if it is a pattern. -/
def destructuredParameters (source : List Char) (name : String) : List (String × Option String) :=
  match ((openingPattern name).find? source).bind fun found => Code.bracketBody? source (found.stop - 1) with
  | none => []
  | some body => (Code.splitTopLevel ',' body).filterMap readEntry

open Parameters in
/-- The first simple default that an entry of a parameter pattern gives to `name`. -/
def destructuredDefault? (source : List Char) (name : String) : Option String :=
  ((defaultPattern name).find? source).map fun found => String.ofList (showLiteral (found.get 1))

end UiCatalog
