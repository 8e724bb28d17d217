import UiCatalog.Json.Value
import UiCatalog.Number.Shortest

/-!
# Written JSON

`compact` writes a value without white space, `pretty` with one member or item a line and two blanks for
every level. Objects are written in the order of their members.
-/
namespace UiCatalog

/-- How the digits of a floating-point number are laid out. -/
structure FloatLayout where
  /-- The exponents of the first digit for which the number is written without an exponent. -/
  plainFrom : Int
  plainTo : Int
  /-- What stands before a positive exponent. -/
  plus : String

namespace FloatLayout

def zeros (n : Nat) : List Char := List.replicate n '0'

/-- The digits with a point and no exponent, `place` being the power of ten of the last digit. -/
def plain (digits : List Char) (place : Int) : List Char :=
  if 0 ≤ place then digits ++ zeros place.toNat ++ ['.', '0']
  else
    let behind := (-place).toNat
    if behind < digits.length then
      digits.take (digits.length - behind) ++ '.' :: digits.drop (digits.length - behind)
    else ['0', '.'] ++ zeros (behind - digits.length) ++ digits

/-- The digits with a point behind the first one and an exponent. -/
def scientific (layout : FloatLayout) (digits : List Char) (exponent : Int) : List Char :=
  let fraction := digits.drop 1
  digits.take 1 ++ (if fraction.isEmpty then [] else '.' :: fraction) ++ ['e'] ++
    (if exponent < 0 then ['-'] else layout.plus.toList) ++ Nat.toDigits 10 exponent.natAbs

/-- A number with the fewest digits that read back. -/
def format (layout : FloatLayout) (x : Binary64) : List Char :=
  let (count, place) := x.shortest
  let digits := Nat.toDigits 10 count
  let exponent := place + digits.length - 1
  (if x.negative then ['-'] else []) ++
    if layout.plainFrom ≤ exponent ∧ exponent ≤ layout.plainTo then plain digits place
    else layout.scientific digits exponent

end FloatLayout

namespace Json

/-- Exponents from -5 to 15 are written without an exponent, larger ones with a plus sign. -/
def floatLayout : FloatLayout := ⟨-5, 15, "+"⟩

def Number.chars : Number → List Char
  | .natural n => Nat.toDigits 10 n
  | .negative n => '-' :: Nat.toDigits 10 (n + 1)
  | .float x => floatLayout.format x

/-- A character as it stands in a string literal: quotes, backslashes and controls are escaped. -/
def escapeChar (c : Char) : List Char :=
  if c = '"' then ['\\', '"']
  else if c = '\\' then ['\\', '\\']
  else if c = '\x08' then ['\\', 'b']
  else if c = '\t' then ['\\', 't']
  else if c = '\n' then ['\\', 'n']
  else if c = '\x0c' then ['\\', 'f']
  else if c = '\r' then ['\\', 'r']
  else if c.toNat < 0x20 then
    ['\\', 'u', '0', '0', Nat.digitChar (c.toNat / 16), Nat.digitChar (c.toNat % 16)]
  else [c]

def quote (s : String) : List Char := '"' :: s.toList.flatMap escapeChar ++ ['"']

mutual

def compactChars : Json → List Char
  | null => "null".toList
  | bool b => (if b then "true" else "false").toList
  | number n => n.chars
  | string s => quote s
  | array items => '[' :: compactItems items ++ [']']
  | object members => '\x7b' :: compactMembers members ++ ['\x7d']

def compactItems : List Json → List Char
  | [] => []
  | [item] => compactChars item
  | item :: items => compactChars item ++ ',' :: compactItems items

def compactMembers : List (String × Json) → List Char
  | [] => []
  | [(key, value)] => quote key ++ ':' :: compactChars value
  | (key, value) :: members => quote key ++ ':' :: compactChars value ++ ',' :: compactMembers members

end

/-- A line end and the blanks before what stands at a level. -/
def newLine (level : Nat) : List Char := '\n' :: List.replicate (2 * level) ' '

mutual

/-- The value on lines of its own, `level` being the number of levels around it. -/
def prettyChars (level : Nat) : Json → List Char
  | null => "null".toList
  | bool b => (if b then "true" else "false").toList
  | number n => n.chars
  | string s => quote s
  | array items =>
    if items.isEmpty then ['[', ']']
    else '[' :: prettyItems (level + 1) items ++ newLine level ++ [']']
  | object members =>
    if members.isEmpty then ['\x7b', '\x7d']
    else '\x7b' :: prettyMembers (level + 1) members ++ newLine level ++ ['\x7d']

def prettyItems (level : Nat) : List Json → List Char
  | [] => []
  | [item] => newLine level ++ prettyChars level item
  | item :: items => newLine level ++ prettyChars level item ++ ',' :: prettyItems level items

def prettyMembers (level : Nat) : List (String × Json) → List Char
  | [] => []
  | [(key, value)] => newLine level ++ quote key ++ ':' :: ' ' :: prettyChars level value
  | (key, value) :: members =>
    newLine level ++ quote key ++ ':' :: ' ' :: prettyChars level value ++
      ',' :: prettyMembers level members

end

def compact (v : Json) : String := String.ofList v.compactChars

def pretty (v : Json) : String := String.ofList (v.prettyChars 0)

end Json

end UiCatalog
