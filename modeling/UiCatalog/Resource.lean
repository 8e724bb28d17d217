import UiCatalog.Catalog
import UiCatalog.Tool

/-!
# Resources

The catalog is also served as resources: one for the listing and one for every component, which is named at
the end of its address. A component named like the listing hides it.
-/
namespace UiCatalog

/-- What an address holds. -/
structure Resource where
  uri : String
  mimeType : String
  text : String
  deriving DecidableEq, Repr

namespace Resource

open Json

def scheme : String := "components://"

def listingUri : String := "components://list"

def jsonType : String := "application/json"

def toJson (r : Resource) : Json :=
  .object [("uri", .string r.uri), ("mimeType", .string r.mimeType), ("text", .string r.text)]

def definitionsJson : Json := .array [.object [
  ("uri", .string listingUri),
  ("name", .string "Component catalog"),
  ("description", .string "Every documented component with its description and sub-components"),
  ("mimeType", .string jsonType)]]

def templatesJson : Json := .array [.object [
  ("uriTemplate", .string "components://\x7bname\x7d"),
  ("name", .string "Component documentation"),
  ("description", .string "Full documentation of one component, by name"),
  ("mimeType", .string jsonType)]]

def listing (catalog : Catalog) : Json :=
  .object [("metadata", catalog.metadataJson),
    ("components", .array (catalog.components.map Tool.summary))]

def value? (catalog : Catalog) (uri : String) : Option Json := do
  let name ← Text.stripStart? scheme.toList uri.toList
  match catalog.find? (String.ofList name) with
  | some d => some d.toJson
  | none => if uri = listingUri then some (listing catalog) else none

/-- The resource at an address: JSON with sorted keys. -/
def read? (catalog : Catalog) (uri : String) : Option Resource :=
  (value? catalog uri).map fun v => ⟨uri, jsonType, v.sortKeys.pretty⟩

end Resource

end UiCatalog
