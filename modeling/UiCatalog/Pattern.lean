import UiCatalog.Text.Blank
import UiCatalog.Text.Word

/-!
# Text patterns

Small patterns over characters, tried from left to right: of two alternatives the first that lets the
rest match wins, and a repetition takes as much as it can unless it is reluctant. `find?` gives the first
match of a text, `findAll` all matches that do not overlap. The patterns at the end are the pieces that
declarations are recognised by.
-/
namespace UiCatalog

/-- A pattern over characters. -/
inductive Pattern where
  | empty
  /-- One character of a class. -/
  | one (accepts : Char → Bool)
  /-- As many characters of a class as possible. -/
  | many (accepts : Char → Bool)
  /-- As few characters of a class as possible. -/
  | few (accepts : Char → Bool)
  | seq (first second : Pattern)
  | either (first second : Pattern)
  /-- The body any number of times, as often as possible. -/
  | repeated (body : Pattern)
  /-- The body, remembered under a number. -/
  | group (index : Nat) (body : Pattern)
  /-- A place with a word character on exactly one side. -/
  | wordEdge
  | lineStart
  | textStart
  | textEnd

namespace Pattern

open Text

instance : Append Pattern := ⟨seq⟩

instance : OrElse Pattern := ⟨fun first second => either first (second ())⟩

def many1 (accepts : Char → Bool) : Pattern := one accepts ++ many accepts

def optional (body : Pattern) : Pattern := either body empty

def char (c : Char) : Pattern := one (· == c)

def chars : List Char → Pattern
  | [] => empty
  | c :: cs => char c ++ chars cs

def text (s : String) : Pattern := chars s.toList

def blanks : Pattern := many isBlank

/-- At least one blank. -/
def gap : Pattern := many1 isBlank

/-- A character that is none of the given ones. -/
def noneOf (excluded : String) (c : Char) : Bool := !excluded.contains c

def anyChar (_ : Char) : Bool := true

def notLineFeed (c : Char) : Bool := c != '\n'

/-- Part of a text that a group remembers. -/
structure Capture where
  /-- The number of characters before it. -/
  start : Nat
  stop : Nat
  /-- The text from `start` on. -/
  source : List Char

def Capture.chars (c : Capture) : List Char := c.source.take (c.stop - c.start)

/-- A place in a text under a match: what is before it, what follows, and the groups so far. -/
structure Point where
  before : Option Char
  offset : Nat
  rest : List Char
  groups : List (Nat × Capture)

/-- The place behind the character `c`, with `rest` following. -/
def Point.after (p : Point) (c : Char) (rest : List Char) : Point :=
  { p with before := some c, offset := p.offset + 1, rest }

def Point.atWordEdge (p : Point) : Bool :=
  p.before.any isWord != p.rest.head?.any isWord

/-- The longest run first. -/
def runMany (accepts : Char → Bool) (next : Point → Option β) (p : Point) : List Char → Option β
  | [] => next { p with rest := [] }
  | c :: cs =>
    if accepts c then
      match runMany accepts next (p.after c cs) cs with
      | some found => some found
      | none => next { p with rest := c :: cs }
    else next { p with rest := c :: cs }

/-- The shortest run first. -/
def runFew (accepts : Char → Bool) (next : Point → Option β) (p : Point) : List Char → Option β
  | [] => next { p with rest := [] }
  | c :: cs =>
    match next { p with rest := c :: cs } with
    | some found => some found
    | none => if accepts c then runFew accepts next (p.after c cs) cs else none

/-- The body again and again while it moves forward; the list bounds how often. -/
def runRepeated (step : Point → (Point → Option β) → Option β) (next : Point → Option β) :
    List Char → Point → Option β
  | [], p => next p
  | _ :: bound, p =>
    match step p fun q => if p.offset < q.offset then runRepeated step next bound q else none with
    | some found => some found
    | none => next p

/-- Matches at a place and goes on with `next`, backing up where that fails. -/
def run (pattern : Pattern) (p : Point) (next : Point → Option β) : Option β :=
  match pattern with
  | empty => next p
  | one accepts =>
    match p.rest with
    | c :: cs => if accepts c then next (p.after c cs) else none
    | [] => none
  | many accepts => runMany accepts next p p.rest
  | few accepts => runFew accepts next p p.rest
  | seq first second => run first p fun q => run second q next
  | either first second =>
    match run first p next with
    | some found => some found
    | none => run second p next
  | repeated body => runRepeated (fun q k => run body q k) next p.rest p
  | group index body =>
    run body p fun q => next { q with groups := (index, ⟨p.offset, q.offset, p.rest⟩) :: q.groups }
  | wordEdge => if p.atWordEdge then next p else none
  | lineStart => if p.before.all (· == '\n') then next p else none
  | textStart => if p.before.isNone then next p else none
  | textEnd => if p.rest.isEmpty then next p else none

/-- A match: the part of the text that it covers, and its groups. -/
structure Match where
  whole : Capture
  groups : List (Nat × Capture)

namespace Match

def start (m : Match) : Nat := m.whole.start

def stop (m : Match) : Nat := m.whole.stop

def chars (m : Match) : List Char := m.whole.chars

def group? (m : Match) (index : Nat) : Option Capture := m.groups.lookup index

/-- The text of a group, if it took part in the match. -/
def get? (m : Match) (index : Nat) : Option (List Char) := (m.group? index).map Capture.chars

/-- The text of a group, empty if it took no part. -/
def get (m : Match) (index : Nat) : List Char := (m.get? index).getD []

/-- The text of the first of the groups that took part. -/
def firstOf (m : Match) (indices : List Nat) : Option (List Char) := indices.findSome? m.get?

end Match

/-- The match that starts at a place. -/
def matchAt? (pattern : Pattern) (before : Option Char) (offset : Nat) (rest : List Char) :
    Option Match :=
  run pattern ⟨before, offset, rest, []⟩ fun q => some ⟨⟨offset, q.offset, rest⟩, q.groups⟩

/-- The first match at or behind a place. -/
def findFrom? (pattern : Pattern) (before : Option Char) (offset : Nat) :
    List Char → Option Match
  | [] => matchAt? pattern before offset []
  | c :: cs =>
    match matchAt? pattern before offset (c :: cs) with
    | some found => some found
    | none => findFrom? pattern (some c) (offset + 1) cs

/-- The first match in a text. -/
def find? (pattern : Pattern) (s : List Char) : Option Match := findFrom? pattern none 0 s

def isMatch (pattern : Pattern) (s : List Char) : Bool := (find? pattern s).isSome

/-- The matches at or behind a place once `skip` more characters, covered by a match, are passed. -/
def findAllFrom (pattern : Pattern) : Nat → Option Char → Nat → List Char → List Match
  | 0, before, offset, [] => (matchAt? pattern before offset []).toList
  | _ + 1, _, _, [] => []
  | skip + 1, _, offset, c :: cs => findAllFrom pattern skip (some c) (offset + 1) cs
  | 0, before, offset, c :: cs =>
    match matchAt? pattern before offset (c :: cs) with
    | some found =>
      found :: findAllFrom pattern (found.stop - offset - 1) (some c) (offset + 1) cs
    | none => findAllFrom pattern 0 (some c) (offset + 1) cs

/-- All matches in a text, from left to right, each behind the one before it. -/
def findAll (pattern : Pattern) (s : List Char) : List Match := findAllFrom pattern 0 none 0 s

/-- The text behind a place with the matches replaced, in the layout of `findAllFrom`. -/
def replaceAllFrom (pattern : Pattern) (image : Match → List Char) :
    Nat → Option Char → Nat → List Char → List Char
  | _, _, _, [] => []
  | skip + 1, _, offset, c :: cs => replaceAllFrom pattern image skip (some c) (offset + 1) cs
  | 0, before, offset, c :: cs =>
    match matchAt? pattern before offset (c :: cs) with
    | some found =>
      image found ++
        replaceAllFrom pattern image (found.stop - offset - 1) (some c) (offset + 1) cs
    | none => c :: replaceAllFrom pattern image 0 (some c) (offset + 1) cs

/-- The text with every match of a non-empty pattern replaced by its image. -/
def replaceAll (pattern : Pattern) (image : Match → List Char) (s : List Char) : List Char :=
  replaceAllFrom pattern image 0 none 0 s

end Pattern

/-! ## Pieces of declarations -/

namespace Code

open Pattern

def isIdentifierStart (c : Char) : Bool := c.isAlpha || c == '_' || c == '$'

def isIdentifierPart (c : Char) : Bool := Text.isWord c || c == '$'

def identifier : Pattern := one isIdentifierStart ++ many isIdentifierPart

/-- A name as components have it: an identifier with a capital at its start. -/
def capitalName : Pattern := one Char.isUpper ++ many isIdentifierPart

def bindingKeyword : Pattern := text "const" <|> text "let" <|> text "var"

/-- The equals sign of a binding behind an optional type annotation. -/
def annotatedEquals : Pattern := blanks ++ optional (char ':' ++ many (noneOf "=")) ++ char '='

def typeArguments : Pattern := optional (char '<' ++ many (noneOf ">") ++ char '>')

/-- The namespace that a wrapper function may be qualified with. -/
def qualifier : Pattern := optional (text "React.")

def wholeWord (word : String) : Pattern := text word ++ wordEdge

def arrow : Pattern := text "=>"

end Code

end UiCatalog
