import UiCatalog.FileTree
import UiCatalog.Json.Record

/-!
# The configuration

A configuration is read from a JSON file, in which every field may be missing but no other field may stand.
The file is the given one, or else one in the home directory; without any file the configuration has its
default values.
-/
namespace UiCatalog

/-- Where the server listens. -/
structure ServerConfig where
  host : String := "127.0.0.1"
  port : Nat := 3100
  deriving DecidableEq, Repr

structure LoggingConfig where
  level : String := "warn"
  deriving DecidableEq, Repr

/-- The components whose parts are described one by one, unless others are configured. -/
def defaultCompounds : List String :=
  ["Accordion", "AlertDialog", "Card", "Dialog", "DropdownMenu", "Menubar", "Select", "Sheet", "Sidebar",
    "Table", "Tabs"]

structure Config where
  schema : Option String := none
  comment : Option String := none
  /-- The directory from which the other paths are seen. -/
  projectRoot : Path := ⟨"."⟩
  componentsDir : Path := ⟨"src/components"⟩
  demosDir : Path := ⟨"src/pages/components"⟩
  catalogPath : Path := ⟨"mcp/data/components.json"⟩
  packageName : String := "@/components/ui"
  compounds : List String := defaultCompounds
  server : ServerConfig := {}
  logging : LoggingConfig := {}
  deriving DecidableEq, Repr

/-- What makes a well-formed configuration useless. -/
inductive ConfigFault where
  | blankPackage
  | blankCompound
  | noPort
  deriving DecidableEq, Repr

def ConfigFault.message : ConfigFault → String
  | blankPackage => "package_name must not be empty"
  | blankCompound => "compound_components must not contain empty names"
  | noPort => "server.port must be between 1 and 65535"

/-- Why there is no configuration. -/
inductive ConfigError where
  | missing (path : Path)
  | unreadable (path : Path)
  | malformed (path : Path)
  | invalid (fault : ConfigFault)
  deriving DecidableEq, Repr

def ConfigError.message : ConfigError → String
  | missing path => "configuration file not found: " ++ path.text
  | unreadable path => "failed to read configuration file: " ++ path.text
  | malformed path => "failed to parse configuration file: " ++ path.text
  | invalid fault => "configuration validation failed: " ++ fault.message

namespace Config

open Json Json.Record

/-- The first fault of a configuration. -/
def fault? (c : Config) : Option ConfigFault :=
  if Text.isBlankText c.packageName.toList then some .blankPackage
  else if c.compounds.any fun name => Text.isBlankText name.toList then some .blankCompound
  else if c.server.port = 0 then some .noPort
  else none

def validate (c : Config) : Except ConfigError Config :=
  match c.fault? with
  | some fault => .error (.invalid fault)
  | none => .ok c

def catalogFile (c : Config) : Path := c.projectRoot.join c.catalogPath

def maxPort : Nat := 65535

def readPath : Reader Path := fun room w => (readText room w).map Path.mk

def readServer : Reader ServerConfig := enter fun room w => do
  let fields ← fields? ["host", "port"] true w
  return {
    host := ← withDefault? fields "host" ({} : ServerConfig).host (readText room)
    port := ← withDefault? fields "port" ({} : ServerConfig).port (readNat maxPort room) }

def readLogging : Reader LoggingConfig := enter fun room w => do
  let fields ← fields? ["level"] true w
  return { level := ← withDefault? fields "level" ({} : LoggingConfig).level (readText room) }

/-- The fields in their declared order. -/
def fieldNames : List String :=
  ["$schema", "_comment", "project_root", "components_dir", "demos_dir", "catalog_path", "package_name",
    "compound_components", "server", "logging"]

def read : Reader Config := enter fun room w => do
  let fields ← fields? fieldNames true w
  let base : Config := {}
  return {
    schema := ← withDefault? fields "$schema" none (readOptional readText room)
    comment := ← withDefault? fields "_comment" none (readOptional readText room)
    projectRoot := ← withDefault? fields "project_root" base.projectRoot (readPath room)
    componentsDir := ← withDefault? fields "components_dir" base.componentsDir (readPath room)
    demosDir := ← withDefault? fields "demos_dir" base.demosDir (readPath room)
    catalogPath := ← withDefault? fields "catalog_path" base.catalogPath (readPath room)
    packageName := ← withDefault? fields "package_name" base.packageName (readText room)
    compounds := ← withDefault? fields "compound_components" base.compounds (readList readText room)
    server := ← withDefault? fields "server" base.server (readServer room)
    logging := ← withDefault? fields "logging" base.logging (readLogging room) }

def ofText? (text : String) : Option Config := (Written.ofText? text).bind (read Written.maxDepth)

def ofFile (t : FileTree) (path : Path) : Except ConfigError Config :=
  match t.text? path with
  | none => .error (.unreadable path)
  | some text =>
    match ofText? text with
    | none => .error (.malformed path)
    | some c => c.validate

/-- The file in which a configuration stands that is not given. -/
def homeFile (home : Path) : Path := (home.join ⟨".ui-docs-mcp"⟩).join ⟨"config.json"⟩

/-- The configuration in the given file, or else that of the home directory, or else the default one. -/
def load (t : FileTree) (home : Option Path) (given : Option Path) : Except ConfigError Config :=
  match given with
  | some path => if t.contains path then ofFile t path else .error (.missing path)
  | none =>
    match (home.map homeFile).filter t.contains with
    | some path => ofFile t path
    | none => .ok {}

end Config

end UiCatalog
