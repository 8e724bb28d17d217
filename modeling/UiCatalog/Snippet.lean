import UiCatalog.Descriptor
import UiCatalog.Json.Decode
import UiCatalog.Json.Record
import UiCatalog.Text.Blank

/-!
# Usage snippets

`SnippetRequest.render` writes an element that uses a component: attributes for the variant, the size and
further properties in their order, and children unless the component is an element without content.
-/
namespace UiCatalog

/-- What a snippet should show. -/
structure SnippetRequest where
  componentName : String
  variant : Option String := none
  size : Option String := none
  children : Option String := none
  /-- Further attributes in their order. -/
  attributes : OrderedMap Json := .empty

namespace SnippetRequest

open Json Json.Record

/-- The components that have no content. -/
def voidComponents : List String :=
  ["Input", "Textarea", "Separator", "Checkbox", "Switch", "Slider", "Progress", "Skeleton", "Calendar"]

/--
An attribute. True is a bare name; false, and a value in parentheses, becomes an expression; a value in
braces is one already; any other value is a string in which quotes are escaped.
-/
def attributeText (name value : String) : String :=
  let chars := value.toList
  if value = "true" then " " ++ name
  else if value = "false" then " " ++ name ++ "=\x7bfalse\x7d"
  else if chars.head? = some '\x7b' then " " ++ name ++ "=" ++ value
  else if chars.head? = some '(' then " " ++ name ++ "=\x7b" ++ value ++ "\x7d"
  else " " ++ name ++ "=\"" ++ String.ofList (Text.replace ['"'] "&quot;".toList chars) ++ "\""

/-- The text of an attribute value: a string as it is, any other value as JSON. -/
def valueText : Json → String
  | .string s => s
  | v => v.compact

/-- All attributes, the variant and the size first. -/
def attributesText (r : SnippetRequest) : String :=
  let named := (r.variant.map (attributeText "variant")).toList ++ (r.size.map (attributeText "size")).toList
  String.join (named ++ r.attributes.entries.map fun (name, value) => attributeText name (valueText value))

/-- The element; its children default to the component's name. -/
def render (r : SnippetRequest) (d : Descriptor) : String :=
  let opening := "<" ++ d.name ++ r.attributesText
  if voidComponents.contains d.name then opening ++ " />"
  else opening ++ ">" ++ r.children.getD d.name ++ "</" ++ d.name ++ ">"

/-- Reads a request from a JSON text, which keeps the order of the attributes. -/
def read : Reader SnippetRequest := enter fun room w => do
  let fields ← fields? ["componentName", "variant", "size", "children", "props"] false w
  return {
    componentName := ← required? fields "componentName" (readText room)
    variant := ← withDefault? fields "variant" none (readOptional readText room)
    size := ← withDefault? fields "size" none (readOptional readText room)
    children := ← withDefault? fields "children" none (readOptional readText room)
    attributes := ← withDefault? fields "props" .empty (readMap readValue room) }

def ofText? (text : String) : Option SnippetRequest :=
  (Written.ofText? text).bind (read Written.maxDepth)

/-- A request of which the component may not be known yet. -/
structure Draft where
  componentName : Option String := none
  request : SnippetRequest := { componentName := "" }

def shape : RecordShape Draft where
  name := "SnippetRequest"
  fields := [
    ("componentName", fun v s => (decodeText v).map fun name => { s with componentName := some name }),
    ("variant", fun v s => (decodeOptional decodeText v).map fun x =>
      { s with request := { s.request with variant := x } }),
    ("size", fun v s => (decodeOptional decodeText v).map fun x =>
      { s with request := { s.request with size := x } }),
    ("children", fun v s => (decodeOptional decodeText v).map fun x =>
      { s with request := { s.request with children := x } }),
    ("props", fun v s => (decodeMap v).map fun members =>
      { s with request := { s.request with attributes := OrderedMap.ofList members } })]
  missing? s := if s.componentName.isNone then some (0, "componentName") else none

/-- Decodes a request from a value, whose attributes are in the order of their names. -/
def decode : Decoder SnippetRequest := fun v =>
  (shape.decode {} v).map fun s => { s.request with componentName := s.componentName.getD "" }

end SnippetRequest

end UiCatalog
