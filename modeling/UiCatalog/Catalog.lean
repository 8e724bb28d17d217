import UiCatalog.Descriptor.Json
import UiCatalog.Text.Blank
import UiCatalog.Text.Case

/-!
# The catalog

The catalog holds one descriptor per component. Components are found by name, up to the case of ASCII
letters, and searched for by a piece of text, up to case.
-/
namespace UiCatalog

/-- All component descriptors with the time at which they were gathered. -/
structure Catalog where
  generatedAt : Option String := none
  /-- The number of components that was written with the catalog. -/
  totalComponents : Nat := 0
  components : List Descriptor := []

namespace Catalog

open Json Json.Record Text

def empty : Catalog := {}

/-- A catalog of the given components, made at the given time. -/
def ofComponents (time : String) (components : List Descriptor) : Catalog :=
  { generatedAt := some time, totalComponents := components.length, components }

/-- The first component of that name, up to the case of ASCII letters. -/
def find? (catalog : Catalog) (name : String) : Option Descriptor :=
  catalog.components.find? fun d => eqIgnoreAsciiCase d.name name

def searchedTexts (d : Descriptor) : List String :=
  [d.name, d.description] ++ d.properties.flatMap (fun p => [p.name, p.description]) ++
    d.subComponents.flatMap fun s => [s.name, s.description]

/-- A text holds the query, both taken in lower case. -/
def hits (query text : String) : Bool := contains (lower query.toList) (lower text.toList)

def search (catalog : Catalog) (query : String) : List Descriptor :=
  catalog.components.filter fun d => (searchedTexts d).any (hits query)

def metadataJson (catalog : Catalog) : Json :=
  .object [("generatedAt", Json.ofText? catalog.generatedAt),
    ("totalComponents", Json.nat catalog.totalComponents)]

/-- The fields in their declared order. -/
def toJson (catalog : Catalog) : Json :=
  .object [("generatedAt", Json.ofText? catalog.generatedAt),
    ("totalComponents", Json.nat catalog.totalComponents),
    ("components", .array (catalog.components.map Descriptor.toJson))]

/-- The largest count that a catalog can hold. -/
def maxCount : Nat := twoPower 64 - 1

/-- Reads a catalog; every field may be missing. -/
def read : Reader Catalog := enter fun room w => do
  let fields ← fields? ["generatedAt", "totalComponents", "components"] false w
  return {
    generatedAt := ← withDefault? fields "generatedAt" none (readOptional readText room)
    totalComponents := ← withDefault? fields "totalComponents" 0 (readNat maxCount room)
    components := ← withDefault? fields "components" [] (readList Descriptor.read room) }

def ofText? (text : String) : Option Catalog :=
  (Written.ofText? text).bind (read Written.maxDepth)

/-- The text of a catalog file without its last line end. -/
def text (catalog : Catalog) : String := catalog.toJson.pretty

def fileText (catalog : Catalog) : String := catalog.text ++ "\n"

end Catalog

end UiCatalog
