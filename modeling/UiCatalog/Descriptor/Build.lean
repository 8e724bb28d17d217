import UiCatalog.Parameters
import UiCatalog.SubComponents
import UiCatalog.Text.Numeral
import UiCatalog.VariantConfig

/-!
# Descriptors from sources

`Descriptor.build` reads the source of a component. Its properties come from the doc comment, then from the
destructured parameters, then from the style variants, and last come those that every component has; an
earlier source of knowledge is kept, except that a style category always has the type and default that its
configuration gives.
-/
namespace UiCatalog.Descriptor

open Text Pattern Code

/-- A call of the function by which a component passes a ref on. -/
def forwardRefCall : Pattern :=
  qualifier ++ Pattern.text "forwardRef" ++ blanks ++ typeArguments ++ blanks ++ char '('

/-- A binding of `name` to such a call. -/
def forwardRefBinding (name : String) : Pattern :=
  bindingKeyword ++ gap ++ Pattern.text name ++ annotatedEquals ++ blanks ++ qualifier ++ wholeWord "forwardRef"

/-- The names that only group other fields. -/
def containers (fields : List FieldTag) : List String := fields.filterMap (·.container)

/-- The property that a field tag documents; its default may be found in the source. -/
def ofFieldTag (source : List Char) (field : FieldTag) : Property :=
  let default? := field.default?.or (destructuredDefault? source field.name)
  { name := field.name
    type := field.type
    description := field.description
    default?
    required := !field.optional && default?.isNone }

/-- The properties that a doc comment documents, in order. -/
def commentProperties (source : List Char) (fields : List FieldTag) : List Property :=
  (fields.filter fun field => !(containers fields).contains field.name).map (ofFieldTag source)

def isStandard (name : String) : Bool := name == "className" || name == "children" || name == "ref"

/-- The type that the default of an undocumented parameter suggests. -/
def suggestedType (default : String) : String :=
  if default = "true" ∨ default = "false" then "boolean"
  else if (unquote? default.toList).isSome then "string"
  else if isNumeric default.toList then "number"
  else "unknown"

def ofParameter (parameter : String × Option String) : Property :=
  { name := parameter.1
    type := (parameter.2.map suggestedType).getD "unknown"
    default? := parameter.2 }

def parameterProperties (parameters : List (String × Option String)) : List Property :=
  (parameters.filter fun parameter => !isStandard parameter.1).map ofParameter

def addAll (d : Descriptor) (ps : List Property) : Descriptor := ps.foldl addProperty d

/-- The descriptor with what its declaration says: the doc comment first, then the parameters. -/
def annotate (source : List Char) (d : Descriptor) : Descriptor :=
  let documented := match DocBlock.attached? source d.name with
    | none => d
    | some block =>
      { d with description := block.description }.addAll (commentProperties source block.fields)
  documented.addAll (parameterProperties (destructuredParameters source d.name))

def quoteOption (option : String) : String := "'" ++ option ++ "'"

/-- The type of a style category: its options in quotes. -/
def optionUnion (options : List String) : String := String.intercalate " | " (options.map quoteOption)

/-- A property as the configuration of its style category wants it. -/
def styled (options : List String) (default? : Option String) (p : Property) : Property :=
  match default? with
  | some option =>
    { p with type := optionUnion options, default? := some (quoteOption option), required := false }
  | none => { p with type := optionUnion options }

def addCategory (defaults : OrderedMap String) (d : Descriptor) (category : String × List String) :
    Descriptor :=
  let added := d.addProperty { name := category.1 }
  { added with
    properties := updateFirst category.1 (styled category.2 (defaults.get? category.1)) added.properties }

def applyVariants (config : VariantConfig) (d : Descriptor) : Descriptor :=
  { config.variants.entries.foldl (addCategory config.defaults) d with
    variants := config.variants
    defaultVariants := config.defaults }

def importStatementOf (names : List String) (package : String) : String :=
  "import \x7b " ++ String.intercalate ", " names ++ " \x7d from '" ++ package ++ "';"

def classNameProperty : Property :=
  { name := "className", type := "string", description := "Additional CSS classes to apply" }

def childrenProperty : Property :=
  { name := "children", type := "React.ReactNode", description := "Content rendered inside the component" }

def refProperty : Property :=
  { name := "ref", type := "React.Ref<HTMLElement>"
    description := "Ref forwarded to the underlying DOM element" }

/-- The descriptor with the properties of every component; it has a `ref` just when it passes one on. -/
def addStandard (d : Descriptor) : Descriptor :=
  let d := (d.addProperty classNameProperty).addProperty childrenProperty
  if d.forwardsRef then d.addProperty refProperty
  else { d with properties := d.properties.filter (·.name != "ref") }

/-- The descriptor of the primary component of a source. -/
def build (source : List Char) (name package : String) : Descriptor :=
  let annotated := annotate source { name, forwardsRef := forwardRefCall.isMatch source }
  let styledUp := match VariantConfig.first? source with
    | some config => annotated.applyVariants config
    | none => annotated
  let subs := UiCatalog.subComponents source name
  { styledUp with
    subComponents := subs
    importStatement := importStatementOf (name :: subs.map SubComponent.name) package }.addStandard

def buildSub (source : List Char) (package name : String) : Descriptor :=
  (annotate source
    { name
      forwardsRef := (forwardRefBinding name).isMatch source
      importStatement := importStatementOf [name] package }).addStandard

/-- The descriptor of a compound component, with the descriptors of its secondary components. -/
def buildCompound (source : List Char) (name package : String) : Descriptor :=
  let d := build source name package
  { d with subDescriptors := d.subComponents.map fun sub => buildSub source package sub.name }

end UiCatalog.Descriptor
