import UiCatalog.Catalog.File
import UiCatalog.ComponentName
import UiCatalog.Config
import UiCatalog.Descriptor.Build
import UiCatalog.Descriptor.Merge

/-!
# Projects

A project has one directory per component and may have a demo page for each. Its catalog is gathered
directory by directory; a directory that cannot be read gives nothing, and the others are not affected.
-/
namespace UiCatalog

structure Project where
  root : Path
  componentsDir : Path
  demosDir : Path
  packageName : String
  /-- The names of the components whose parts are described one by one. -/
  compounds : List String

namespace Project

def ofConfig (c : Config) : Project where
  root := c.projectRoot
  componentsDir := c.projectRoot.join c.componentsDir
  demosDir := c.projectRoot.join c.demosDir
  packageName := c.packageName
  compounds := c.compounds

def demo? (p : Project) (t : FileTree) (directory : Path) (name : String) : Option Path :=
  (candidates p.demosDir [name, stem directory] demoExtensions).find? t.isFile

def isCompound (p : Project) (name : String) : Bool :=
  p.compounds.any fun compound => Text.eqIgnoreAsciiCase compound name

/-- What a source says of its component. -/
def describeSource (p : Project) (source name : String) : Descriptor :=
  if p.isCompound name then Descriptor.buildCompound source.toList name p.packageName
  else Descriptor.build source.toList name p.packageName

/-- The descriptor with its source file told, also in the descriptors of its parts. -/
def located (path : String) (d : Descriptor) : Descriptor :=
  { d with
    filePath := path
    subDescriptors := d.subDescriptors.map fun s => { s with filePath := path } }

/-- The demo page of a component, if it has one. -/
def readDemo (p : Project) (t : FileTree) (directory : Path) (name : String) :
    Except CatalogError (Option DemoPage) :=
  match p.demo? t directory name with
  | none => .ok none
  | some path =>
    match t.text? path with
    | none => .error (.unreadable path)
    | some text => .ok (some (DemoPage.read text.toList p.packageName))

def skippedEvent (directory : Path) (name : String) : Log.Event where
  level := .warn
  topic := .gathering
  message := "No component source found, skipping"
  fields := [("component", .bare name), ("dir", .bare directory.text)]

def noDemoEvent (name : String) : Log.Event where
  level := .debug
  topic := .gathering
  message := "No demo page"
  fields := [("component", .bare name)]

def describedEvent (name : String) (d : Descriptor) : Log.Event where
  level := .debug
  topic := .gathering
  message := "Processed component"
  fields := [("component", .bare name), ("props", .number d.properties.length),
    ("examples", .number d.examples.length), ("sub_components", .number d.subComponents.length)]

/-- The descriptor of the component in a directory, under a name; none if there is no source. -/
def describe (p : Project) (t : FileTree) (directory : Path) (name : String) :
    Except CatalogError (Option Descriptor) × List Log.Event :=
  match source? t directory name with
  | none => (.ok none, [skippedEvent directory name])
  | some path =>
    match t.text? path, p.readDemo t directory name with
    | none, _ => (.error (.unreadable path), [])
    | some _, .error e => (.error e, [])
    | some source, .ok demo =>
      let d := located (p.root.relativeText path) ((p.describeSource source name).mergeDemo demo)
      (.ok (some d), (if demo.isNone then [noDemoEvent name] else []) ++ [describedEvent name d])

/-- The component directories in the order of their names. -/
def directories (p : Project) (t : FileTree) : Except CatalogError (List Path) :=
  match t.locate? p.componentsDir with
  | none => .error (.noComponents p.componentsDir)
  | some place =>
    if t.isDirectoryAt place then
      let names := (t.names place).filter fun name => t.isDirectoryAt (place ++ [name])
      .ok (p.componentsDir.listed?.elim [] fun base => names.map base.entry)
    else .error (.noComponents p.componentsDir)

/-- What one component directory comes to. -/
structure Outcome where
  name : String
  result : Except CatalogError (Option Descriptor)
  events : List Log.Event

namespace Outcome

def descriptor? (o : Outcome) : Option Descriptor := o.result.toOption.join

def failed (o : Outcome) : Bool := o.result matches .error _

def failureEvents (o : Outcome) : List Log.Event :=
  match o.result with
  | .ok _ => []
  | .error e => [{
      level := .error
      topic := .gathering
      message := "Failed to process component"
      fields := [("component", .bare o.name), ("error", .bare e.message)] }]

end Outcome

/-- What a directory comes to under the name of its component. -/
def outcome (p : Project) (t : FileTree) (directory : Path) : Outcome :=
  let name := componentName (stem directory)
  let (result, events) := p.describe t directory name
  { name, result, events }

def startEvent (p : Project) (count : Nat) : Log.Event where
  level := .info
  topic := .gathering
  message := "Building component catalog"
  fields := [("directories", .number count), ("path", .bare p.componentsDir.text)]

def endEvent (components failed : Nat) : Log.Event where
  level := .info
  topic := .gathering
  message := "Component catalog built"
  fields := [("components", .number components), ("failed", .number failed)]

def gather (p : Project) (t : FileTree) (time : String) : Except CatalogError Catalog × List Log.Event :=
  match p.directories t with
  | .error e => (.error e, [])
  | .ok directories =>
    let outcomes := directories.map (p.outcome t)
    let components := outcomes.filterMap Outcome.descriptor?
    (.ok (Catalog.ofComponents time components),
      p.startEvent directories.length :: outcomes.flatMap (fun o => o.events ++ o.failureEvents) ++
        [endEvent components.length (outcomes.countP Outcome.failed)])

end Project

end UiCatalog
