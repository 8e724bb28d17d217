import UiCatalog.Catalog.File

/-!
# The registry

A registry gives a catalog from its file. The file is read when the catalog is first needed; from then on the
catalog stays as it is. A file that is missing counts as an empty catalog, one that cannot be read or does
not hold a catalog is tried again the next time.
-/
namespace UiCatalog

structure Registry where
  path : Path
  /-- The catalog, once it has been taken from the file. -/
  loaded? : Option Catalog := none

namespace Registry

def loadedEvent (path : Path) (catalog : Catalog) : Log.Event where
  level := .info
  topic := .registry
  message := "Loaded component catalog"
  fields := [("path", .bare path.text), ("components", .number catalog.components.length)]

def missingEvent (path : Path) : Log.Event where
  level := .warn
  topic := .registry
  message := "Component catalog not found; run the build command to generate it"
  fields := [("path", .bare path.text)]

def unavailableEvent (e : CatalogError) : Log.Event where
  level := .error
  topic := .registry
  message := "Component catalog unavailable"
  fields := [("error", .bare e.message)]

/-- What the file gives, with the event that tells of it. -/
def fetch (t : FileTree) (path : Path) : Except CatalogError Catalog × List Log.Event :=
  if t.isFile path then
    match Catalog.ofFile t path with
    | .ok catalog => (.ok catalog, [loadedEvent path catalog])
    | .error e => (.error e, [])
  else (.ok .empty, [missingEvent path])

/-- The catalog, which is taken from the file unless it has been before. -/
def load (r : Registry) (t : FileTree) : Registry × Except CatalogError Catalog × List Log.Event :=
  match r.loaded? with
  | some catalog => (r, .ok catalog, [])
  | none =>
    let (result, events) := fetch t r.path
    ({ r with loaded? := result.toOption }, result, events)

/-- The catalog, or an empty one for this time if there is none to be had. -/
def catalog (r : Registry) (t : FileTree) : Registry × Catalog × List Log.Event :=
  match r.load t with
  | (r, .ok catalog, events) => (r, catalog, events)
  | (r, .error e, events) => (r, .empty, events ++ [unavailableEvent e])

end Registry

end UiCatalog
