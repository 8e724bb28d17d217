import UiCatalog.Path
import UiCatalog.Text.Utf8

/-!
# File trees

A file tree gives the files and directories by their location: the names on the way from the root. A path is
followed step by step, from the root or from the working directory, and every step needs a directory to start
from.
-/
namespace UiCatalog

/-- The names on the way from the root. -/
abbrev Location := List String

inductive Entry where
  | file (bytes : List UInt8)
  | directory
  deriving DecidableEq, Repr

/-- Files and directories; of two entries at one location the first counts. -/
structure FileTree where
  entries : List (Location × Entry) := []
  workingDirectory : Location := []
  deriving Repr

namespace FileTree

/-- What stands at a location; the root is always a directory. -/
def entry? (t : FileTree) (place : Location) : Option Entry :=
  if place = [] then some .directory else t.entries.lookup place

def isDirectoryAt (t : FileTree) (place : Location) : Bool := t.entry? place == some .directory

/-- The tree with an entry at a location in place of the old one. -/
def put (t : FileTree) (place : Location) (e : Entry) : FileTree :=
  { t with entries := (place, e) :: t.entries.filter (·.1 != place) }

def erase (t : FileTree) (place : Location) : FileTree :=
  { t with entries := t.entries.filter fun e => !place.isPrefixOf e.1 }

/-- The names right below a location, in order. -/
def names (t : FileTree) (place : Location) : List String :=
  let below := t.entries.filterMap fun (l, _) =>
    if l.dropLast = place then l.getLast? else none
  below.eraseDups.mergeSort (· ≤ ·)

def start (t : FileTree) (p : Path) : Location := if p.isAbsolute then [] else t.workingDirectory

def stepFrom (place : Location) (piece : String) : Location :=
  if Path.isIdle piece then place else if piece = ".." then place.dropLast else place ++ [piece]

/-- Where the pieces lead, if each of them is taken from a directory. -/
def walk (t : FileTree) : Location → List String → Option Location
  | place, [] => some place
  | place, piece :: pieces =>
    if t.isDirectoryAt place then t.walk (stepFrom place piece) pieces else none

/-- The longest path, in bytes. -/
def maxPathSize : Nat := 4095

/-- A path that can be followed: it is neither empty nor too long, and has no null character. -/
def canFollow (p : Path) : Bool :=
  !p.text.isEmpty && p.text.utf8ByteSize ≤ maxPathSize && !p.text.toList.contains '\x00'

/-- The location that a path leads to, whether or not there is anything. -/
def locate? (t : FileTree) (p : Path) : Option Location :=
  if canFollow p then t.walk (t.start p) p.pieces else none

def find? (t : FileTree) (p : Path) : Option Entry := (t.locate? p).bind t.entry?

def contains (t : FileTree) (p : Path) : Bool := (t.find? p).isSome

def isDirectory (t : FileTree) (p : Path) : Bool := t.find? p == some .directory

/-- The bytes of the file that a path leads to. -/
def bytes? (t : FileTree) (p : Path) : Option (List UInt8) :=
  match t.find? p with
  | some (.file bytes) => some bytes
  | _ => none

def isFile (t : FileTree) (p : Path) : Bool := (t.bytes? p).isSome

/-- The text of the file that a path leads to, if it is text. -/
def text? (t : FileTree) (p : Path) : Option String := (t.bytes? p).bind Text.Utf8.text?

/-- The longest name, in bytes. -/
def maxNameSize : Nat := 255

/-- A piece that can name a new entry. -/
def isNewName (piece : String) : Bool :=
  !Path.isIdle piece && piece != ".." && piece.utf8ByteSize ≤ maxNameSize

/-- The location of a file that can be written, whether or not it is there: the path ends in a name in a
directory, and not in that of a directory. -/
def writable? (t : FileTree) (p : Path) : Option Location := do
  let name ← p.pieces.getLast?
  let parent ← t.walk (t.start p) p.pieces.dropLast
  if canFollow p && isNewName name && t.isDirectoryAt parent && !t.isDirectoryAt (parent ++ [name]) then
    some (parent ++ [name])
  else none

/-- The tree with a file of the given bytes, if it can be written. -/
def write? (t : FileTree) (p : Path) (bytes : List UInt8) : Option FileTree :=
  (t.writable? p).map fun place => t.put place (.file bytes)

/-- Takes the pieces from a location and makes the directories that are missing on the way, up to the first
piece that leads to no directory; whether there is none. -/
def makeWay (t : FileTree) : Location → List String → FileTree × Bool
  | place, [] => (t, t.isDirectoryAt place)
  | place, piece :: pieces =>
    if t.isDirectoryAt place then
      let next := stepFrom place piece
      if (t.entry? next).isNone && isNewName piece then makeWay (t.put next .directory) next pieces
      else t.makeWay next pieces
    else (t, false)

/-- Makes the directories on a path that are missing; whether the path then leads to a directory. -/
def makeDirectories (t : FileTree) (p : Path) : FileTree × Bool :=
  if canFollow p then t.makeWay (t.start p) p.pieces else (t, false)

end FileTree

end UiCatalog
