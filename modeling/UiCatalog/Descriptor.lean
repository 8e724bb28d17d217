import UiCatalog.OrderedMap

/-!
# Component descriptors

The documentation record of one component: its properties, style variants, secondary components and
usage examples.
-/
namespace UiCatalog

/-- One documented property of a component. -/
structure Property where
  name : String
  type : String := ""
  description : String := ""
  /-- The default as source text, if it is known. -/
  default? : Option String := none
  /-- Callers have to give the property. -/
  required : Bool := false
  deriving DecidableEq, Repr

/-- A secondary component exported from the same source. -/
structure SubComponent where
  name : String
  description : String := ""
  deriving DecidableEq, Repr

/-- Where an example comes from. -/
inductive Example.Kind where
  | importLine
  | live
  | codeBlock
  deriving DecidableEq, Repr

/-- A usage example. -/
structure Example where
  title : String
  code : String
  kind : Example.Kind
  deriving DecidableEq, Repr

/-- The documentation record of one component. -/
structure Descriptor where
  name : String
  description : String := ""
  /-- The line by which users import the component. -/
  importStatement : String := ""
  properties : List Property := []
  variants : OrderedMap (List String) := .empty
  defaultVariants : OrderedMap String := .empty
  subComponents : List SubComponent := []
  /-- The component passes a ref on to an element. -/
  forwardsRef : Bool := false
  examples : List Example := []
  /-- The source file, relative to the project. -/
  filePath : String := ""
  /-- Full records of the secondary components of a compound component. -/
  subDescriptors : List Descriptor := []

namespace Descriptor

def property? (d : Descriptor) (name : String) : Option Property :=
  d.properties.find? (·.name == name)

/-- The list with `p` at its end, unless a property of that name is in it. -/
def appendNew (p : Property) (ps : List Property) : List Property :=
  if ps.any (·.name == p.name) then ps else ps ++ [p]

/-- The descriptor with one more property, unless it has one of that name. -/
def addProperty (d : Descriptor) (p : Property) : Descriptor :=
  { d with properties := appendNew p d.properties }

/-- The list with the first property of a name changed. -/
def updateFirst (name : String) (change : Property → Property) : List Property → List Property
  | [] => []
  | p :: ps => if p.name = name then change p :: ps else p :: updateFirst name change ps

end Descriptor

end UiCatalog
