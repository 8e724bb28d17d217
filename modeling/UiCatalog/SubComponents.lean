import UiCatalog.Descriptor
import UiCatalog.DocComment.Block

/-!
# Exported components

The module of a compound component exports several components that are used together. `subComponents`
finds those beside the primary one: exported functions, exported bindings to functions or to `forwardRef`,
and the names of export lists.
-/
namespace UiCatalog

namespace SubComponents

open Text Pattern Code

def exportedFunction : Pattern :=
  text "export" ++ gap ++ optional (text "default" ++ gap) ++ optional (text "async" ++ gap) ++
    text "function" ++ gap ++ group 1 capitalName

def exportedBinding : Pattern :=
  text "export" ++ gap ++ text "const" ++ gap ++ group 1 capitalName ++ annotatedEquals ++ blanks

def exportedForwardRef : Pattern := exportedBinding ++ qualifier ++ wholeWord "forwardRef"

def exportedFunctionValue : Pattern :=
  exportedBinding ++
    (wholeWord "function" <|>
      (char '(' ++ many (noneOf ")") ++ char ')' ++ blanks ++
        optional (char ':' ++ many (noneOf "=")) ++ arrow) <|>
      (identifier ++ blanks ++ arrow))

/-- An export list; group 1 is what stands between its braces. -/
def exportList : Pattern :=
  text "export" ++ blanks ++ char '\x7b' ++ group 1 (many (noneOf "\x7d")) ++ char '\x7d'

/-- The names that a pattern captures, with their places. -/
def captured (source : List Char) (pattern : Pattern) : List (Nat × List Char) :=
  (pattern.findAll source).filterMap fun found =>
    (found.group? 1).map fun name => (name.start, name.chars)

/-- The name that an item of an export list exports: the last word, if it starts with a capital. -/
def exportedName? (item : List Char) : Option (List Char) :=
  match (words item).getLast? with
  | some (c :: cs) => if c.isUpper then some (c :: cs) else none
  | _ => none

/-- The component names in the export lists, all at the place of their list. -/
def listed (source : List Char) : List (Nat × List Char) :=
  (captured source exportList).flatMap fun (place, items) =>
    ((splitAt ',' items).filterMap exportedName?).map (place, ·)

/-- All exported component names in source order. -/
def exportedNames (source : List Char) : List String :=
  let found := [exportedFunction, exportedForwardRef, exportedFunctionValue].flatMap (captured source)
  ((found ++ listed source).mergeSort fun a b => a.1 ≤ b.1).map fun e => String.ofList e.2

def secondaryNames (primary : String) (names : List String) : List String :=
  names.foldl (fun kept name =>
    if name = primary || kept.contains name then kept else kept ++ [name]) []

end SubComponents

/-- The exported components beside `primary`, each at its first place, with their descriptions. -/
def subComponents (source : List Char) (primary : String) : List SubComponent :=
  (SubComponents.secondaryNames primary (SubComponents.exportedNames source)).map fun name =>
    { name, description := ((DocBlock.attached? source name).map (·.description)).getD "" }

end UiCatalog
