import UiCatalog.Text.Alphanumeric

/-!
# Patterns for values

A log directive may ask for the value of a field by a regular expression. `ValuePattern.isWellFormed` tells
whether a text is one: groups and classes are closed, repetitions have something to repeat, and escapes are
known ones. Repetitions that are counted in braces cannot be written, since a brace ends the value.
-/
namespace UiCatalog.Log.ValuePattern

open Text

def hexValue? (c : Char) : Option Nat :=
  if c.isDigit then some (c.toNat - '0'.toNat)
  else if 'a' ≤ c ∧ c ≤ 'f' then some (c.toNat - 'a'.toNat + 10)
  else if 'A' ≤ c ∧ c ≤ 'F' then some (c.toNat - 'A'.toNat + 10)
  else none

def hexDigits? : Nat → Nat → List Char → Option (List Char)
  | 0, value, cs => if value.isValidChar then some cs else none
  | _ + 1, _, [] => none
  | count + 1, value, c :: cs => (hexValue? c).bind fun digit => hexDigits? count (value * 16 + digit) cs

/-- The one-letter names of the kinds of characters. -/
def kindLetters : List Char := "clmnpszCLMNPSZ".toList

/-- The letters that stand for a character or a class of characters behind a backslash. -/
def classLetters : List Char := "dswDSWnrtfva".toList

/-- The characters that stand for a place behind a backslash. -/
def placeLetters : List Char := "AzbB<>".toList

def escape? (placesAllowed : Bool) : List Char → Option (List Char)
  | [] => none
  | c :: cs =>
    if c = 'x' then hexDigits? 2 0 cs
    else if c = 'u' then hexDigits? 4 0 cs
    else if c = 'U' then hexDigits? 8 0 cs
    else if c = 'p' ∨ c = 'P' then if cs.head?.any kindLetters.contains then some (cs.drop 1) else none
    else if classLetters.contains c then some cs
    else if placeLetters.contains c then if placesAllowed then some cs else none
    else if c.toNat < 0x80 && !c.isAlphanum then some cs
    else none

/-- What can come first in a class: a mark of negation, then dashes or a closing bracket as such. -/
def classStart (s : List Char) : List Char :=
  let s := if s.head? = some '^' then s.drop 1 else s
  if s.head? = some ']' then s.drop 1 else s.dropWhile (· == '-')

/-- Reads a class up to its closing bracket, inside of which `depth` more classes are open. -/
def classRest? : Nat → Nat → List Char → Option (List Char)
  | 0, _, _ => none
  | _ + 1, _, [] => none
  | fuel + 1, depth, ']' :: cs => if depth = 0 then some cs else classRest? fuel (depth - 1) cs
  | fuel + 1, depth, '[' :: cs => classRest? fuel (depth + 1) (classStart cs)
  | fuel + 1, depth, '\\' :: cs => (escape? false cs).bind (classRest? fuel depth)
  | fuel + 1, depth, c :: '-' :: d :: cs =>
    if d = ']' ∨ d = '-' ∨ d = '\\' then classRest? fuel depth ('-' :: d :: cs)
    else if c ≤ d then classRest? fuel depth cs else none
  | fuel + 1, depth, _ :: cs => classRest? fuel depth cs

def class? (s : List Char) : Option (List Char) := classRest? (s.length + 1) 0 (classStart s)

def startsName (c : Char) : Bool := c == '_' || (isAlphanumeric c && !c.isDigit)

def continuesName (c : Char) : Bool := c == '_' || c == '.' || c == '[' || c == ']' || isAlphanumeric c

/-- Reads the name of a group up to the closing angle. -/
def groupName? (s : List Char) : Option (List Char) :=
  let name := s.takeWhile (· != '>')
  if name.head?.any startsName && name.all continuesName && name.length < s.length then
    some (s.drop (name.length + 1))
  else none

/-- Flags, each at most once, some of which are turned off. -/
def areFlags (flags : List Char) : Bool :=
  flags.all "imsUuxR-".toList.contains && decide flags.Nodup && flags.getLast? != some '-'

/-- Reads flags; a colon behind them opens a group, a parenthesis does not. -/
def flags? (s : List Char) : Option (Bool × List Char) :=
  let flags := s.takeWhile fun c => c != ':' && c != ')'
  match s.drop flags.length with
  | ':' :: cs => if areFlags flags then some (true, cs) else none
  | ')' :: cs => if areFlags flags && !flags.isEmpty then some (false, cs) else none
  | _ => none

/-- Reads what follows an opening parenthesis, and whether it opens a group. -/
def opening? : List Char → Option (Bool × List Char)
  | '?' :: 'P' :: '<' :: cs => (groupName? cs).map (true, ·)
  | '?' :: '<' :: cs => (groupName? cs).map (true, ·)
  | '?' :: cs => flags? cs
  | cs => some (true, cs)

def isRepetition (c : Char) : Bool := c == '*' || c == '+' || c == '?'

/-- Reads a regular expression inside of `depth` groups, behind something that can be repeated or not. -/
def reads : Nat → Nat → Bool → List Char → Bool
  | 0, _, _, _ => false
  | _ + 1, depth, _, [] => depth == 0
  | fuel + 1, depth, repeatable, c :: cs =>
    if c = '(' then (opening? cs).any fun (opens, cs) => reads fuel (if opens then depth + 1 else depth) false cs
    else if c = ')' then depth != 0 && reads fuel (depth - 1) true cs
    else if c = '|' then reads fuel depth false cs
    else if c = '[' then (class? cs).any (reads fuel depth true)
    else if c = '\\' then (escape? true cs).any (reads fuel depth true)
    else if c = '{' then false
    else if isRepetition c then repeatable && reads fuel depth true cs
    else reads fuel depth true cs

/-- The text is a regular expression. -/
def isWellFormed (s : List Char) : Bool := reads (s.length + 1) 0 false s

/-- The regular expression looks for the edges of words. -/
def asksWordEdge : List Char → Bool
  | '\\' :: c :: cs => "bB<>".toList.contains c || asksWordEdge cs
  | _ :: cs => asksWordEdge cs
  | [] => false

end UiCatalog.Log.ValuePattern
