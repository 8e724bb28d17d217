import UiCatalog.CommandLine
import UiCatalog.Disk
import UiCatalog.Listener

/-!
# The program

The parts of the disk that a command line is about are taken into a file tree, the command is run on it, and
what has changed is put back.
-/
namespace UiCatalog.Program

open CommandLine

/-- The tree with the files that may hold the configuration. -/
def takeConfig (home? : Option Path) (i : Invocation) (t : FileTree) : IO FileTree :=
  match i.config?.or (home?.map Config.homeFile) with
  | some path => Disk.takePath 0 t path
  | none => return t

/-- The tree with the directories of components and demo pages, and with the catalog. -/
def takeProject (c : Config) (t : FileTree) : IO FileTree := do
  let p := Project.ofConfig c
  let t ← Disk.takePath 2 t p.componentsDir
  let t ← Disk.takePath 1 t p.demosDir
  Disk.takePath 0 t c.catalogFile

def takeAll (home? : Option Path) (args : List String) : IO FileTree := do
  let t ← Disk.blank
  match Invocation.parse args with
  | .error _ => return t
  | .ok i =>
    let t ← takeConfig home? i t
    match Config.load t home? i.config? with
    | .error _ => return t
    | .ok c => takeProject (i.command.override c) t

/-- The text with blanks before it, up to a width. -/
def padded (width : Nat) (s : String) : String := "".pushn ' ' (width - s.length) ++ s

/-- Tells of an event, after the time and with the levels below each other. -/
def tell (e : Log.Event) : IO Unit := do
  let rest := String.ofList (e.text.toList.drop (e.level.name.length))
  IO.eprintln ((← Listener.now) ++ " " ++ padded 5 e.level.name ++ rest)

def report : Notice → IO Unit
  | .plain text => IO.eprintln text
  | .event e => tell e

def serve (filter : Log.Filter) (server : ServerConfig) (catalog : Catalog) : IO UInt32 := do
  let tellPassing (e : Log.Event) : IO Unit := do
    if filter.passes e then
      tell e
  let address := server.host ++ ":" ++ toString server.port
  try
    (Listener.listen catalog tellPassing server.host server.port.toUInt16).block
    return 0
  catch e =>
    tellPassing {
      level := .error
      message := "Server error"
      fields := [("error", .bare (toString e)), ("address", .bare address)] }
    return 1

def run (args : List String) : IO UInt32 := do
  let env : Environment := {
    home? := (← IO.getEnv "HOME").map Path.mk
    logFilter := (← IO.getEnv "RUST_LOG").getD ""
    time := ← Listener.now }
  let before ← takeAll env.home? args
  let run := CommandLine.run env before args
  Disk.keep before run.tree
  IO.print run.output
  run.notices.forM report
  match run.ending with
  | .serving server catalog => serve run.filter server catalog
  | ending => return ending.status.toUInt32

end UiCatalog.Program

def main (args : List String) : IO UInt32 := UiCatalog.Program.run args
