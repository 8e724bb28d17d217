import UiCatalog.Code.Region
import UiCatalog.Text.Blank

/-!
# Brackets and lists

Matching brackets, the pieces of a comma-separated list and the entries of an object literal. Brackets
and separators inside strings and comments do not count, and the three kinds of brackets count alike.
-/
namespace UiCatalog.Code

open Text

def opensBracket (c : Char) : Bool := c == '{' || c == '(' || c == '['

def closesBracket (c : Char) : Bool := c == '}' || c == ')' || c == ']'

/-- What a character of code adds to the bracket depth. Depths have no bounds here; a counter of 32 bits would show
the same ones in every text below 2 GiB. -/
def depthStep (c : Char) : Int :=
  if opensBracket c then 1 else if closesBracket c then -1 else 0

/-- The number of characters before the bracket that brings the depth from `depth` down to zero. The depth has no
bounds, as with `depthStep`. -/
def closingOffset? : Nat → List (Char × Bool) → Option Nat
  | _, [] => none
  | depth, (c, isCode) :: rest =>
    if isCode && opensBracket c then (closingOffset? (depth + 1) rest).map (· + 1)
    else if isCode && closesBracket c then
      if depth ≤ 1 then some 0 else (closingOffset? (depth - 1) rest).map (· + 1)
    else (closingOffset? depth rest).map (· + 1)

/-- The index of the bracket that closes the one at index `start`. -/
def closingIndex? (s : List Char) (start : Nat) : Option Nat :=
  match s.drop start with
  | [] => none
  | c :: cs =>
    if opensBracket c then (closingOffset? 0 (mark (c :: cs))).map (start + ·) else none

/-- The text between the bracket at index `start` and the one that closes it. -/
def bracketBody? (s : List Char) (start : Nat) : Option (List Char) :=
  (closingIndex? s start).map fun stop => (s.drop (start + 1)).take (stop - (start + 1))

/-- The pieces of a labelled text between the separators at depth zero. The depth has no bounds, as with
`depthStep`. -/
def splitMarked (sep : Char) : Int → List (Char × Bool) → List (List Char)
  | _, [] => [[]]
  | depth, (c, isCode) :: rest =>
    let depth := if isCode then depth + depthStep c else depth
    if isCode && depth == 0 && c == sep then [] :: splitMarked sep depth rest
    else match splitMarked sep depth rest with
      | [] => [[c]]
      | piece :: pieces => (c :: piece) :: pieces

/-- The pieces between the separators outside all brackets, without the blank ones. -/
def splitTopLevel (sep : Char) (s : List Char) : List (List Char) :=
  (splitMarked sep 0 (mark s)).filter fun piece => !isBlankText piece

/-- The number of characters before the first colon at depth zero. The depth has no bounds, as with `depthStep`. -/
def colonOffset? : Int → List (Char × Bool) → Option Nat
  | _, [] => none
  | depth, (c, isCode) :: rest =>
    let depth := if isCode then depth + depthStep c else depth
    if isCode && depth == 0 && c == ':' then some 0 else (colonOffset? depth rest).map (· + 1)

/-- The text inside one layer of quotes of one kind. -/
def unquote? (s : List Char) : Option (List Char) :=
  match trim s with
  | quote :: rest =>
    if isQuote quote && rest.getLast? == some quote then some rest.dropLast else none
  | [] => none

def isSpread (entry : List Char) : Bool := ['.', '.', '.'].isPrefixOf entry

/--
One entry of an object literal: its key without quotes and its value. A shorthand entry has an empty
value; a spread entry, or one without a key, is no entry.
-/
def readEntry (piece : List Char) : Option (List Char × List Char) :=
  let entry := trim piece
  if isSpread entry then none
  else
    let (key, value) := match colonOffset? 0 (mark entry) with
      | some n => (trim (entry.take n), trim (entry.drop (n + 1)))
      | none => (entry, [])
    let key := (unquote? key).getD key
    if key.isEmpty then none else some (key, value)

/-- The entries of the body of an object literal, in order. -/
def objectEntries (body : List Char) : List (List Char × List Char) :=
  (splitTopLevel ',' body).filterMap readEntry

end UiCatalog.Code
