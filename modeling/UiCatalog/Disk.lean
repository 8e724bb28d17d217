import UiCatalog.FileTree

/-!
# The disk as a file tree

Parts of the disk are taken into a file tree, and what has changed in the tree is put back on the disk.
-/
namespace UiCatalog.Disk

def nameOf (place : Location) : String := "/" ++ "/".intercalate place

def locationOf (path : String) : Location := ({ text := path } : Path).pieces.filter (· != "")

def workingDirectory : IO Location := do
  return locationOf (← IO.FS.realPath ".").toString

def entry? (place : Location) : IO (Option Entry) := do
  try
    if ← (← IO.FS.realPath (nameOf place)).isDir then
      return some .directory
    return some (.file (← IO.FS.readBinFile (nameOf place)).toList)
  catch _ => return none

def take (t : FileTree) (place : Location) : IO FileTree := do
  match ← entry? place with
  | some e => return t.put place e
  | none => return t

/-- The tree with what stands below a location of the disk, down to a depth. -/
def takeBelow : Nat → FileTree → Location → IO FileTree
  | 0, t, _ => return t
  | depth + 1, t, place => do
    if !t.isDirectoryAt place then
      return t
    let mut t := t
    for e in ← (← IO.FS.realPath (nameOf place)).readDir do
      t ← take t (place ++ [e.fileName])
      t ← takeBelow depth t (place ++ [e.fileName])
    return t

/-- Takes what stands on the way that the pieces lead, and tells where they lead. -/
def takeWay (t : FileTree) (place : Location) : List String → IO (FileTree × Location)
  | [] => return (t, place)
  | piece :: pieces => do
    let next := FileTree.stepFrom place piece
    takeWay (← take t next) next pieces

/-- The tree with what a path leads to, and with what is below that, down to a depth. -/
def takePath (depth : Nat) (t : FileTree) (path : Path) : IO FileTree := do
  let (t, place) ← takeWay t (t.start path) path.pieces
  takeBelow depth t place

/-- An empty tree in the working directory of the program. -/
def blank : IO FileTree := do
  let place ← workingDirectory
  let (t, _) ← takeWay { workingDirectory := place } [] place
  return t

/-- Puts on the disk what is in the new tree and not in the old one. -/
def keep (old new : FileTree) : IO Unit := do
  for (place, e) in new.entries.reverse do
    if old.entry? place != some e then
      match e with
      | .directory => IO.FS.createDir (nameOf place)
      | .file bytes => IO.FS.writeBinFile (nameOf place) ⟨bytes.toArray⟩

end UiCatalog.Disk
