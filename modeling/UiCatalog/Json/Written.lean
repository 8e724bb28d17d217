import UiCatalog.Json.Numeral

/-!
# JSON texts

`Written.ofText?` reads a JSON text into a tree that keeps what is written: members in their order, repeated
keys, unread numbers and unpaired escapes. What a text means is decided later: `Written.value?` gives the
value, which only exists for texts that are not nested too deeply, whose numbers are in range and whose
escapes are in pairs.
-/
namespace UiCatalog.Json

/-- A piece of a string literal: a character, or a UTF-16 unit given by its hexadecimal digits. -/
inductive Piece where
  | char (c : Char)
  | unit (n : Nat)
  deriving DecidableEq, Repr

/-- A JSON text as a tree. -/
inductive Written where
  | null
  | bool (b : Bool)
  | number (n : Numeral)
  | string (pieces : List Piece)
  | array (items : List Written)
  | object (members : List (List Piece × Written))
  deriving Repr

namespace Written

instance : Inhabited Written := ⟨null⟩

def isSpace (c : Char) : Bool := c == ' ' || c == '\t' || c == '\n' || c == '\r'

def skipSpace (s : List Char) : List Char := s.dropWhile isSpace

def word? (w : String) (s : List Char) : Option (List Char) :=
  if w.toList.isPrefixOf s then some (s.drop w.length) else none

def hexDigit? (c : Char) : Option Nat :=
  if c.isDigit then some (c.toNat - '0'.toNat)
  else if 'a' ≤ c ∧ c ≤ 'f' then some (c.toNat - 'a'.toNat + 10)
  else if 'A' ≤ c ∧ c ≤ 'F' then some (c.toNat - 'A'.toNat + 10)
  else none

def hexUnit? (a b c d : Char) : Option Nat := do
  return (((← hexDigit? a) * 16 + (← hexDigit? b)) * 16 + (← hexDigit? c)) * 16 + (← hexDigit? d)

/-- The character of an escape of two characters. -/
def shortEscape? (c : Char) : Option Char :=
  if c = '"' ∨ c = '\\' ∨ c = '/' then some c
  else if c = 'b' then some '\x08'
  else if c = 'f' then some '\x0c'
  else if c = 'n' then some '\n'
  else if c = 'r' then some '\r'
  else if c = 't' then some '\t'
  else none

def readPieces : List Char → Option (List Piece × List Char)
  | [] => none
  | c :: cs =>
    if c = '"' then some ([], cs)
    else if c = '\\' then
      match cs with
      | 'u' :: h₁ :: h₂ :: h₃ :: h₄ :: rest => do
        let n ← hexUnit? h₁ h₂ h₃ h₄
        let (pieces, after) ← readPieces rest
        return (.unit n :: pieces, after)
      | e :: rest => do
        let c ← shortEscape? e
        let (pieces, after) ← readPieces rest
        return (.char c :: pieces, after)
      | [] => none
    else if c.toNat < 0x20 then none
    else do
      let (pieces, after) ← readPieces cs
      return (.char c :: pieces, after)

/-- Reads at least one digit. -/
def readDigits? (s : List Char) : Option (List Char × List Char) :=
  let digits := s.takeWhile Char.isDigit
  if digits.isEmpty then none else some (digits, s.drop digits.length)

/-- Reads the digits before a point; a zero stands alone. -/
def readWhole? (s : List Char) : Option (List Char × List Char) := do
  let (digits, rest) ← readDigits? s
  if digits.length > 1 ∧ digits.head? = some '0' then none else some (digits, rest)

/-- Reads a point and digits, if there is a point. -/
def readFraction? : List Char → Option (Option (List Char) × List Char)
  | '.' :: s => do
    let (digits, rest) ← readDigits? s
    return (some digits, rest)
  | s => some (none, s)

/-- Reads the sign and the digits of an exponent. -/
def readSigned? : List Char → Option ((Bool × List Char) × List Char)
  | '-' :: s => (readDigits? s).map fun (digits, rest) => ((true, digits), rest)
  | '+' :: s => (readDigits? s).map fun (digits, rest) => ((false, digits), rest)
  | s => (readDigits? s).map fun (digits, rest) => ((false, digits), rest)

/-- Reads an exponent, if there is one. -/
def readExponent? : List Char → Option (Option (Bool × List Char) × List Char)
  | [] => some (none, [])
  | c :: s =>
    if c = 'e' ∨ c = 'E' then (readSigned? s).map fun (exponent, rest) => (some exponent, rest)
    else some (none, c :: s)

def readNumeral? (s : List Char) : Option (Numeral × List Char) := do
  let negative := s.head? = some '-'
  let (whole, s) ← readWhole? (if negative then s.drop 1 else s)
  let (fraction, s) ← readFraction? s
  let (exponent, s) ← readExponent? s
  return (⟨negative, whole, fraction, exponent⟩, s)

mutual

/-- Reads a value; the number bounds the recursion. -/
def readValue : Nat → List Char → Option (Written × List Char)
  | 0, _ => none
  | bound + 1, s =>
    match skipSpace s with
    | [] => none
    | c :: cs =>
      if c = 'n' then (word? "ull" cs).map (null, ·)
      else if c = 't' then (word? "rue" cs).map (bool true, ·)
      else if c = 'f' then (word? "alse" cs).map (bool false, ·)
      else if c = '"' then (readPieces cs).map fun (pieces, rest) => (string pieces, rest)
      else if c = '[' then
        match skipSpace cs with
        | ']' :: rest => some (array [], rest)
        | rest => (readItems bound rest).map fun (items, rest) => (array items, rest)
      else if c = '\x7b' then
        match skipSpace cs with
        | '\x7d' :: rest => some (object [], rest)
        | rest => (readMembers bound rest).map fun (members, rest) => (object members, rest)
      else (readNumeral? (c :: cs)).map fun (n, rest) => (number n, rest)

/-- Reads the items of an array up to its closing bracket. -/
def readItems : Nat → List Char → Option (List Written × List Char)
  | 0, _ => none
  | bound + 1, s => do
    let (item, s) ← readValue bound s
    match skipSpace s with
    | ',' :: rest =>
      let (items, rest) ← readItems bound rest
      return (item :: items, rest)
    | ']' :: rest => return ([item], rest)
    | _ => none

/-- Reads the members of an object up to its closing brace. -/
def readMembers : Nat → List Char → Option (List (List Piece × Written) × List Char)
  | 0, _ => none
  | bound + 1, s =>
    match skipSpace s with
    | '"' :: s => do
      let (key, s) ← readPieces s
      match skipSpace s with
      | ':' :: s =>
        let (value, s) ← readValue bound s
        match skipSpace s with
        | ',' :: rest =>
          let (members, rest) ← readMembers bound rest
          return ((key, value) :: members, rest)
        | '\x7d' :: rest => return ([(key, value)], rest)
        | _ => none
      | _ => none
    | _ => none

end

def ofText? (text : String) : Option Written :=
  let s := text.toList
  match readValue (s.length + 1) s with
  | some (written, rest) => if (skipSpace rest).isEmpty then some written else none
  | none => none

def isHighSurrogate (n : Nat) : Bool := 0xD800 ≤ n && n < 0xDC00

def isLowSurrogate (n : Nat) : Bool := 0xDC00 ≤ n && n < 0xE000

/-- The text of a string literal; none if an escaped surrogate stands alone. -/
def decode? : List Piece → Option (List Char)
  | [] => some []
  | .char c :: rest => (decode? rest).map (c :: ·)
  | .unit n :: rest =>
    if isLowSurrogate n then none
    else if isHighSurrogate n then
      match rest with
      | .unit m :: rest =>
        if isLowSurrogate m then
          (decode? rest).map (Char.ofNat (0x10000 + (n - 0xD800) * 0x400 + (m - 0xDC00)) :: ·)
        else none
      | _ => none
    else (decode? rest).map (Char.ofNat n :: ·)

def text? (pieces : List Piece) : Option String := (decode? pieces).map String.ofList

/-- The number of levels of arrays and objects that a text may have. -/
def maxDepth : Nat := 127

mutual

/-- The value that a text stands for, `room` being the number of levels that it may have. -/
def valueWithin? (room : Nat) : Written → Option Json
  | null => some .null
  | bool b => some (.bool b)
  | number n => n.value?.map Json.number
  | string pieces => (text? pieces).map Json.string
  | array items => if room = 0 then none else (valuesWithin? (room - 1) items).map Json.array
  | object members =>
    if room = 0 then none
    else (membersWithin? (room - 1) members).map fun members => Json.object (sortMembers members)

def valuesWithin? (room : Nat) : List Written → Option (List Json)
  | [] => some []
  | item :: items => do
    let v ← valueWithin? room item
    let vs ← valuesWithin? room items
    return v :: vs

def membersWithin? (room : Nat) : List (List Piece × Written) → Option (List (String × Json))
  | [] => some []
  | (pieces, item) :: rest => do
    let key ← text? pieces
    let v ← valueWithin? room item
    let vs ← membersWithin? room rest
    return (key, v) :: vs

end

/-- The value that a text stands for; its objects are ordered by key and of equal keys the last counts. -/
def value? (w : Written) : Option Json := valueWithin? maxDepth w

end Written

def parse? (text : String) : Option Json := (Written.ofText? text).bind Written.value?

end UiCatalog.Json
