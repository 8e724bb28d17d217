/-!
# Blank characters, words and lines

Blank means white space in the sense of the character database; this class, like others that no short rule
describes, is a list of code point ranges. `trim` cuts blanks at both ends, `words` gives the runs between
blanks, and `lines` the pieces between line feeds.
-/
namespace UiCatalog.Text

/-- The code point of `c` lies in one of the ranges, whose ends are included. -/
def inRanges (ranges : List (Nat × Nat)) (c : Char) : Bool :=
  ranges.any fun (first, last) => first ≤ c.toNat && c.toNat ≤ last

/-- The blank characters, by code point. -/
def blankRanges : List (Nat × Nat) := [
  (0x9, 0xD), (0x20, 0x20), (0x85, 0x85), (0xA0, 0xA0), (0x1680, 0x1680), (0x2000, 0x200A),
  (0x2028, 0x2029), (0x202F, 0x202F), (0x205F, 0x205F), (0x3000, 0x3000)]

def isBlank (c : Char) : Bool := inRanges blankRanges c

def trimStart (s : List Char) : List Char := s.dropWhile isBlank

def trimEnd (s : List Char) : List Char := (s.reverse.dropWhile isBlank).reverse

def trim (s : List Char) : List Char := trimEnd (trimStart s)

def isBlankText (s : List Char) : Bool := s.all isBlank

/-- The pieces between the occurrences of `sep`; there is always at least one. -/
def splitAt (sep : Char) : List Char → List (List Char)
  | [] => [[]]
  | c :: cs =>
    if c = sep then [] :: splitAt sep cs
    else match splitAt sep cs with
      | [] => [[c]]
      | piece :: pieces => (c :: piece) :: pieces

/-- The maximal runs of characters that are not blank, `run` being the one under way in reverse. -/
def wordsAfter (run : List Char) : List Char → List (List Char)
  | [] => if run.isEmpty then [] else [run.reverse]
  | c :: cs =>
    if isBlank c then
      if run.isEmpty then wordsAfter [] cs else run.reverse :: wordsAfter [] cs
    else wordsAfter (c :: run) cs

def words (s : List Char) : List (List Char) := wordsAfter [] s

/-- The pieces one after the other, with `sep` between them. -/
def join (sep : List Char) : List (List Char) → List Char
  | [] => []
  | [piece] => piece
  | piece :: pieces => piece ++ sep ++ join sep pieces

def squeeze (s : List Char) : List Char := join [' '] (words s)

def dropReturn (line : List Char) : List Char :=
  if line.getLast? = some '\r' then line.dropLast else line

/--
The lines of a text. A line feed ends a line and takes a carriage return right before it along; what
follows the last line feed is a line only when it is not empty.
-/
def lines (s : List Char) : List (List Char) :=
  let pieces := splitAt '\n' s
  let last := pieces.getLast?.getD []
  pieces.dropLast.map dropReturn ++ if last.isEmpty then [] else [last]

/-- Every occurrence of `old`, left to right, replaced; the first `skip` characters are left out. -/
def replaceFrom (old new : List Char) : Nat → List Char → List Char
  | _, [] => []
  | skip + 1, _ :: cs => replaceFrom old new skip cs
  | 0, c :: cs =>
    if old.isPrefixOf (c :: cs) then new ++ replaceFrom old new (old.length - 1) cs
    else c :: replaceFrom old new 0 cs

/-- Every occurrence of the non-empty text `old` is replaced by `new`, left to right. -/
def replace (old new s : List Char) : List Char := replaceFrom old new 0 s

/-- The rest of `s` after `start`, if `s` begins with it. -/
def stripStart? (start s : List Char) : Option (List Char) :=
  if start.isPrefixOf s then some (s.drop start.length) else none

/-- `part` occurs in `s`. -/
def contains (part : List Char) : List Char → Bool
  | [] => part.isEmpty
  | c :: cs => part.isPrefixOf (c :: cs) || contains part cs

end UiCatalog.Text
