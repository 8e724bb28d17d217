import UiCatalog.Pattern

/-!
# Field tags

A doc comment describes a property in one line such as
`@param {string} [props.size=md] - The size`: a tag, a type in braces, a name, which is in brackets when the
property may be left out, and a description. `FieldTag.parse?` reads such a line.
-/
namespace UiCatalog

/-- What one tag of a doc comment says of a property. -/
structure FieldTag where
  name : String
  /-- What stands before the last dot of the written name. -/
  container : Option String
  type : String
  description : String
  /-- The name was written in brackets. -/
  optional : Bool
  default? : Option String
  deriving DecidableEq, Repr

namespace FieldTag

open Text Pattern

/-- Groups: the type, the name as written, and the rest of the line. -/
def linePattern : Pattern :=
  textStart ++ char '@' ++ (text "param" <|> text "prop" <|> text "property") ++
    gap ++ char '\x7b' ++ group 1 (many (noneOf "\x7d")) ++ char '\x7d' ++
    gap ++ group 2 ((char '[' ++ many1 (noneOf "]") ++ char ']') <|> many1 (fun c => !isBlank c)) ++
    group 3 (many notLineFeed) ++ textEnd

def unbracket? : List Char → Option (List Char)
  | '[' :: rest => if rest.getLast? = some ']' then some rest.dropLast else none
  | _ => none

/-- The parts before and after the first `sep`. -/
def splitFirst? (sep : Char) (s : List Char) : Option (List Char × List Char) :=
  if s.contains sep then some (s.takeWhile (· != sep), (s.dropWhile (· != sep)).drop 1) else none

/-- The parts before and after the last `sep`. -/
def splitLast? (sep : Char) (s : List Char) : Option (List Char × List Char) :=
  (splitFirst? sep s.reverse).map fun (after, before) => (before.reverse, after.reverse)

/-- The text itself, unless it is empty. -/
def nonEmpty? (s : List Char) : Option (List Char) := if s.isEmpty then none else some s

/-- The written name without brackets, whether it had any, and the default given in them. -/
def readName (written : List Char) : List Char × Bool × Option (List Char) :=
  match unbracket? written with
  | none => (written, false, none)
  | some inner =>
    match splitFirst? '=' inner with
    | none => (inner, true, none)
    | some (name, value) => (name, true, nonEmpty? (trim value))

/-- A description loses the dash that sets it off from the name. -/
def readDescription (s : List Char) : List Char :=
  match trim s with
  | '-' :: rest => trim rest
  | rest => rest

/-- The part of a name before its last dot, and the part after it. -/
def splitContainer (name : List Char) : Option (List Char) × List Char :=
  match splitLast? '.' name with
  | some (container, field) => (some container, field)
  | none => (none, name)

/-- Reads one line of a doc comment; a line of another shape, or without a name, is no field tag. -/
def parse? (line : List Char) : Option FieldTag := do
  let found ← linePattern.find? (trim line)
  let (written, optional, default?) := readName (found.get 2)
  let (container, name) := splitContainer (trim written)
  if name.isEmpty then none
  else some {
    name := String.ofList name
    container := container.map String.ofList
    type := String.ofList (trim (found.get 1))
    description := String.ofList (readDescription (found.get 3))
    optional
    default? := default?.map String.ofList }

end FieldTag

end UiCatalog
