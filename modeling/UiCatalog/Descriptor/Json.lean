import UiCatalog.Descriptor
import UiCatalog.Json.Printer
import UiCatalog.Json.Record

/-!
# Descriptors and JSON

The JSON form of descriptors: `Descriptor.toJson` writes one with its fields in their declared order, and
`Descriptor.read` reads it back.
-/
namespace UiCatalog

open Json Json.Record

def Property.toJson (p : Property) : Json :=
  .object <|
    [("name", .string p.name), ("type", .string p.type), ("description", .string p.description)] ++
      (p.default?.map fun value => ("default", Json.string value)).toList ++
      [("required", .bool p.required)]

def SubComponent.toJson (s : SubComponent) : Json :=
  .object [("name", .string s.name), ("description", .string s.description)]

def Example.Kind.name : Example.Kind → String
  | importLine => "import"
  | live => "example"
  | codeBlock => "codeblock"

def Example.Kind.ofName? (name : String) : Option Example.Kind :=
  [importLine, live, codeBlock].find? (·.name == name)

def Example.toJson (e : Example) : Json :=
  .object [("title", .string e.title), ("code", .string e.code), ("type", .string e.kind.name)]

/-- The options of every category as an object. -/
def variantsJson (variants : OrderedMap (List String)) : Json :=
  .object (variants.entries.map fun (category, options) => (category, Json.strings options))

def defaultVariantsJson (defaults : OrderedMap String) : Json :=
  .object (defaults.entries.map fun (category, option) => (category, Json.string option))

mutual

/-- The fields in their declared order; descriptors of secondary components only where there are any. -/
def Descriptor.toJson : Descriptor → Json
  | ⟨name, description, importStatement, properties, variants, defaultVariants, subComponents,
      forwardsRef, examples, filePath, subDescriptors⟩ =>
    .object <|
      [("name", .string name),
        ("description", .string description),
        ("importStatement", .string importStatement),
        ("props", .array (properties.map Property.toJson)),
        ("variants", variantsJson variants),
        ("defaultVariants", defaultVariantsJson defaultVariants),
        ("subComponents", .array (subComponents.map SubComponent.toJson)),
        ("hasForwardRef", .bool forwardsRef),
        ("examples", .array (examples.map Example.toJson)),
        ("filePath", .string filePath)] ++
      if subDescriptors.isEmpty then []
      else [("subComponentDocs", .array (Descriptor.listToJson subDescriptors))]

def Descriptor.listToJson : List Descriptor → List Json
  | [] => []
  | d :: ds => d.toJson :: Descriptor.listToJson ds

end

def Property.read : Reader Property := enter fun room w => do
  let fields ← fields? ["name", "type", "description", "default", "required"] false w
  return {
    name := ← required? fields "name" (readText room)
    type := ← withDefault? fields "type" "" (readText room)
    description := ← withDefault? fields "description" "" (readText room)
    default? := ← withDefault? fields "default" none (readOptional readText room)
    required := ← withDefault? fields "required" false (readBool room) }

def SubComponent.read : Reader SubComponent := enter fun room w => do
  let fields ← fields? ["name", "description"] false w
  return {
    name := ← required? fields "name" (readText room)
    description := ← withDefault? fields "description" "" (readText room) }

/-- A kind is written as its name, or as an object with the name as its only key and null under it. -/
def Example.Kind.read : Reader Example.Kind
  | _, .string pieces => (Written.text? pieces).bind ofName?
  | room, .object [(pieces, .null)] => if room = 0 then none else (Written.text? pieces).bind ofName?
  | _, _ => none

def Example.read : Reader Example := enter fun room w => do
  let fields ← fields? ["title", "code", "type"] false w
  return {
    title := ← required? fields "title" (readText room)
    code := ← required? fields "code" (readText room)
    kind := ← required? fields "type" (Example.Kind.read room) }

/-- The fields of a descriptor in their declared order. -/
def Descriptor.fieldNames : List String :=
  ["name", "description", "importStatement", "props", "variants", "defaultVariants", "subComponents",
    "hasForwardRef", "examples", "filePath", "subComponentDocs"]

/-- Reads the fields of a descriptor, the last of them by `readDocs`; only the name has to be given. -/
def Descriptor.readFields (room : Nat) (readDocs : Written → Option (List Descriptor)) (w : Written) :
    Option Descriptor := do
  let fields ← fields? Descriptor.fieldNames false w
  return {
    name := ← required? fields "name" (readText room)
    description := ← withDefault? fields "description" "" (readText room)
    importStatement := ← withDefault? fields "importStatement" "" (readText room)
    properties := ← withDefault? fields "props" [] (readList Property.read room)
    variants := ← withDefault? fields "variants" .empty (readMap (readList readText) room)
    defaultVariants := ← withDefault? fields "defaultVariants" .empty (readMap readText room)
    subComponents := ← withDefault? fields "subComponents" [] (readList SubComponent.read room)
    forwardsRef := ← withDefault? fields "hasForwardRef" false (readBool room)
    examples := ← withDefault? fields "examples" [] (readList Example.read room)
    filePath := ← withDefault? fields "filePath" "" (readText room)
    subDescriptors := ← withDefault? fields "subComponentDocs" [] readDocs }

/-- Reads a descriptor; the descriptors of its secondary components stand two levels further in. -/
def Descriptor.read : Reader Descriptor
  | 0, _ => none
  | 1, w => Descriptor.readFields 0 (fun _ => none) w
  | room + 2, w => Descriptor.readFields (room + 1)
      (fun docs => match docs with
        | .array items => items.mapM (Descriptor.read room)
        | _ => none) w

def Descriptor.text (d : Descriptor) : String := d.toJson.compact

def Descriptor.ofText? (text : String) : Option Descriptor :=
  (Written.ofText? text).bind (Descriptor.read Written.maxDepth)

end UiCatalog
