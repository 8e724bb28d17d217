import UiCatalog.Catalog
import UiCatalog.Snippet

/-!
# Tools

A tool answers a call from the catalog with one text: JSON on success, a message when the call fails. A
failing call is still an answer.
-/
namespace UiCatalog

namespace Tool

open Json

/-- A tool as it is announced to clients. -/
structure Definition where
  name : String
  description : String
  inputSchema : Json

def Definition.toJson (d : Definition) : Json :=
  .object [("name", .string d.name), ("description", .string d.description),
    ("inputSchema", d.inputSchema)]

def textSchema (description : String) : Json :=
  .object [("type", .string "string"), ("description", .string description)]

def objectSchema (properties : List (String × Json)) (required : List String) : Json :=
  .object <| [("type", .string "object"), ("properties", .object properties)] ++
    if required.isEmpty then [] else [("required", Json.strings required)]

def nameSchema (description : String) : Json := objectSchema [("name", textSchema description)] ["name"]

def attributesSchema : Json :=
  .object [("type", .string "object"),
    ("description", .string ("Additional props. \"true\" renders a bare attribute, " ++
      "values starting with '\x7b' are used verbatim, values starting with '(' are wrapped in braces")),
    ("additionalProperties", .object [("type", Json.strings ["string", "number", "boolean"])])]

def snippetSchema : Json :=
  objectSchema
    [("componentName", textSchema "Component name (case-insensitive)"),
      ("variant", textSchema "Value for the variant prop"),
      ("size", textSchema "Value for the size prop"),
      ("children", textSchema "Element content; defaults to the component name"),
      ("props", attributesSchema)]
    ["componentName"]

/-- The tools in the order in which they are announced. -/
def definitions : List Definition := [
  { name := "list_components"
    description := "List every documented UI component with its description and the names " ++
      "of its sub-components."
    inputSchema := objectSchema [] [] },
  { name := "get_component"
    description := "Get the full documentation for one component: props, variants, " ++
      "sub-components, examples and the import statement."
    inputSchema := nameSchema "Component name (case-insensitive), e.g. 'Button'" },
  { name := "get_component_props"
    description := "Get the props, variant options and variant defaults of a component."
    inputSchema := nameSchema "Component name (case-insensitive)" },
  { name := "get_component_examples"
    description := "Get the usage examples harvested from a component's demo page."
    inputSchema := nameSchema "Component name (case-insensitive)" },
  { name := "search_components"
    description := "Search components by name, description, prop or sub-component " ++
      "(case-insensitive substring match)."
    inputSchema := objectSchema [("query", textSchema "Text to search for")] ["query"] },
  { name := "generate_snippet"
    description := "Generate a ready-to-paste usage snippet for a component, with its " ++
      "import statement."
    inputSchema := snippetSchema }]

/-- The answer to a call. -/
structure Result where
  text : String
  isError : Bool
  deriving DecidableEq, Repr

namespace Result

def ok (text : String) : Result := ⟨text, false⟩

def failed (message : String) : Result := ⟨message, true⟩

def json (v : Json) : Result := ok v.pretty

/-- The answer as one text item; the mark of failure only where there is one. -/
def toJson (r : Result) : Json :=
  .object <|
    [("content", .array [.object [("type", .string "text"), ("text", .string r.text)]])] ++
      if r.isError then [("isError", .bool true)] else []

end Result

/-- The name, description and secondary components of a descriptor. -/
def summary (d : Descriptor) : Json :=
  .object [("name", .string d.name), ("description", .string d.description),
    ("subComponents", Json.strings (d.subComponents.map SubComponent.name))]

def listComponents (catalog : Catalog) : Result := .json (.array (catalog.components.map summary))

/-- The component that the argument `name` names, passed on to `answer`. -/
def withComponent (catalog : Catalog) (arguments : Json) (answer : Descriptor → Result) : Result :=
  match (arguments.member? "name").bind Json.text? with
  | none => .failed "Missing required parameter: name"
  | some name =>
    match catalog.find? name with
    | none => .failed ("Component '" ++ name ++ "' not found")
    | some d => answer d

def componentAnswer (d : Descriptor) : Result := .json d.toJson

/-- The properties and variants, with sorted keys. -/
def propertiesAnswer (d : Descriptor) : Result :=
  .json <| sortKeys <| .object [
    ("name", .string d.name),
    ("importStatement", .string d.importStatement),
    ("props", .array (d.properties.map Property.toJson)),
    ("variants", variantsJson d.variants),
    ("defaultVariants", defaultVariantsJson d.defaultVariants)]

def examplesAnswer (d : Descriptor) : Result :=
  if d.examples.isEmpty then
    .ok ("No examples are available for '" ++ d.name ++ "'. Use get_component for its props and " ++
      "generate_snippet for a starting point.")
  else
    .json <| sortKeys <| .object [
      ("name", .string d.name), ("examples", .array (d.examples.map Example.toJson))]

def searchResult (d : Descriptor) : Json :=
  .object [("name", .string d.name), ("description", .string d.description),
    ("hasSubComponents", .bool !d.subComponents.isEmpty)]

def searchComponents (catalog : Catalog) (arguments : Json) : Result :=
  match (arguments.member? "query").bind Json.text? with
  | none => .failed "Missing required parameter: query"
  | some query =>
    let found := catalog.search query
    .json <| sortKeys <| .object [
      ("query", .string query),
      ("count", Json.nat found.length),
      ("results", .array (found.map searchResult))]

def snippetAnswer (request : SnippetRequest) (d : Descriptor) : Result :=
  .json <| sortKeys <| .object [
    ("component", .string d.name),
    ("importStatement", .string d.importStatement),
    ("snippet", .string (request.render d))]

def generateSnippet (catalog : Catalog) (arguments : Json) : Result :=
  match SnippetRequest.decode arguments with
  | .error e => .failed ("Invalid arguments: " ++ e.message)
  | .ok request =>
    match catalog.find? request.componentName with
    | none => .failed ("Component '" ++ request.componentName ++ "' not found")
    | some d => snippetAnswer request d

def call (catalog : Catalog) (name : String) (arguments : Json) : Result :=
  match name with
  | "list_components" => listComponents catalog
  | "get_component" => withComponent catalog arguments componentAnswer
  | "get_component_props" => withComponent catalog arguments propertiesAnswer
  | "get_component_examples" => withComponent catalog arguments examplesAnswer
  | "search_components" => searchComponents catalog arguments
  | "generate_snippet" => generateSnippet catalog arguments
  | _ => .failed ("Unknown tool: " ++ name)

end Tool

end UiCatalog
