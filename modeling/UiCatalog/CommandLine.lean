import UiCatalog.CommandLine.Arguments
import UiCatalog.Log.Filter
import UiCatalog.Project
import UiCatalog.Registry
import UiCatalog.Rpc.Handler

/-!
# The command line

`build` gathers the catalog of a project and writes it to its file; `serve` takes it from there for the
server. A run is a function of the arguments, the file tree and the environment; it leaves a file tree and
what is told on the way.
-/
namespace UiCatalog.CommandLine

/-- What surrounds a run. -/
structure Environment where
  home? : Option Path := none
  /-- The text of a log filter. -/
  logFilter : String := ""
  /-- The time of the run. -/
  time : String := ""

/-- Something that is told on the way. -/
inductive Notice where
  | plain (text : String)
  | event (e : Log.Event)
  deriving DecidableEq, Repr

/-- The lines of a notice, which a line feed ends. -/
def Notice.lines : Notice → List String
  | plain text => (Text.lines (text.toList ++ ['\n'])).map String.ofList
  | event e => e.lines

/-- How a run ends. -/
inductive Ending where
  | succeeded
  | failed
  | misused
  /-- The server is to listen, with the catalog that has been loaded. -/
  | serving (server : ServerConfig) (catalog : Catalog)

/-- The status with which the program ends, unless it goes on. -/
def Ending.status : Ending → Nat
  | succeeded => 0
  | failed => 1
  | misused => 2
  | serving _ _ => 0

/-- What a run leaves. -/
structure Run where
  ending : Ending
  tree : FileTree
  output : String := ""
  notices : List Notice := []
  /-- The filter for what is told from then on. -/
  filter : Log.Filter := {}

/-- The level for a verbosity and the name of a configured level; unknown names stand for warnings. -/
def chosenLevel (i : Invocation) (configured : String) : Log.Level :=
  if i.quiet then .error
  else match i.verbosity with
    | 0 => (Log.Level.ofName? configured).getD .warn
    | 1 => .info
    | 2 => .debug
    | _ => .trace

/-- The filter of a run: the level that is chosen, and what the environment says of single topics. -/
def filterFor (env : Environment) (level : Log.Level) : Log.Filter :=
  (Log.Filter.ofText env.logFilter).add { threshold? := some level }

def filterNotices (env : Environment) : List Notice :=
  (Log.Filter.faults env.logFilter).map fun (text, fault) =>
    .plain ("ignoring `" ++ text ++ "`: " ++ fault.message)

def Command.override (c : Config) : Command → Config
  | .build root? output? =>
    { c with projectRoot := root?.getD c.projectRoot, catalogPath := output?.getD c.catalogPath }
  | .serve host? port? catalog? =>
    { c with
      server := { host := host?.getD c.server.host, port := port?.getD c.server.port }
      catalogPath := catalog?.getD c.catalogPath }

def startEvent : Log.Event where
  level := .info
  message := "Starting ui-docs-mcp"
  fields := [("version", .quoted Rpc.serverVersion)]

def errorEvent (message error : String) : Log.Event where
  level := .error
  message := message
  fields := [("error", .bare error)]

/-- What a command comes to: how it ends, the tree it leaves, its events and its last words. -/
structure Result where
  ending : Ending
  tree : FileTree
  events : List Log.Event
  summary? : Option String := none

def buildCatalog (c : Config) (t : FileTree) (time : String) : Result :=
  match (Project.ofConfig c).gather t time with
  | (.error e, events) =>
    { ending := .failed, tree := t, events := events ++ [errorEvent "Catalog build failed" e.message] }
  | (.ok catalog, gathered) =>
    match catalog.save c.catalogFile t with
    | (t, .error e, events) =>
      { ending := .failed
        tree := t
        events := gathered ++ events ++ [errorEvent "Failed to write catalog" e.message] }
    | (t, .ok _, events) =>
      { ending := .succeeded
        tree := t
        events := gathered ++ events
        summary? := some ("Documented " ++ toString catalog.totalComponents ++ " components in " ++
          c.catalogFile.text) }

def loadCatalog (c : Config) (t : FileTree) : Result :=
  match ({ path := c.catalogFile } : Registry).load t with
  | (_, .error e, events) =>
    { ending := .failed
      tree := t
      events := events ++ [errorEvent "Failed to load component catalog" e.message] }
  | (_, .ok catalog, events) => { ending := .serving c.server catalog, tree := t, events }

def Command.run (command : Command) (c : Config) (t : FileTree) (time : String) : Result :=
  match (command.override c).validate with
  | .error e =>
    { ending := .failed, tree := t, events := [errorEvent "Invalid command-line override" e.message] }
  | .ok c =>
    match command with
    | .build _ _ => buildCatalog c t time
    | .serve _ _ _ => loadCatalog c t

def Invocation.run (i : Invocation) (env : Environment) (t : FileTree) : Run :=
  match Config.load t env.home? i.config? with
  | .error e =>
    { ending := .failed, tree := t, notices := [.plain ("Configuration error: " ++ e.message)] }
  | .ok c =>
    let filter := filterFor env (chosenLevel i c.logging.level)
    let result := i.command.run c t env.time
    { ending := result.ending
      tree := result.tree
      notices := filterNotices env ++
        ((startEvent :: result.events).filter filter.passes).map .event ++
        (result.summary?.map .plain).toList
      filter }

def usage : String :=
  "Usage: ui-docs-mcp [-c FILE] [-v]... [-q] COMMAND\n\n" ++
  "Commands:\n" ++
  "  build [--root DIR] [-o FILE]                   gather the component catalog\n" ++
  "  serve [--host HOST] [-p PORT] [--catalog FILE] serve the component catalog\n"

def run (env : Environment) (t : FileTree) (args : List String) : Run :=
  match Invocation.parse args with
  | .ok i => i.run env t
  | .error .usage => { ending := .misused, tree := t, notices := [.plain usage] }
  | .error .help => { ending := .succeeded, tree := t, output := usage }
  | .error .version =>
    { ending := .succeeded
      tree := t
      output := Rpc.serverName ++ " " ++ Rpc.serverVersion ++ "\n" }

end UiCatalog.CommandLine
