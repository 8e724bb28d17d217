import UiCatalog.Demo.Examples
import UiCatalog.Demo.PropertyTable

/-!
# Demo pages

A demo page shows a component in use. `DemoPage.read` gathers what it adds to the component's descriptor:
examples, the lead paragraph and the rows of the property table.
-/
namespace UiCatalog

/-- What a demo page says of a component. -/
structure DemoPage where
  examples : List Example := []
  description : Option String := none
  rows : List Demo.PropertyRow := []
  deriving DecidableEq, Repr

namespace Demo

open Text Pattern

/-- A paragraph; group 1 holds its attributes and group 2 its content. -/
def paragraph : Pattern :=
  text "<p" ++ wordEdge ++ group 1 (many (· != '>')) ++ char '>' ++ group 2 (few anyChar) ++
    text "</p>"

/-- A class attribute; group 1 is its value. -/
def classAttribute : Pattern :=
  text "class" ++ optional (text "Name") ++ char '=' ++ optional (char '\x7b') ++
    one isQuoteMark ++ group 1 (many fun c => !isQuoteMark c) ++ one isQuoteMark

/-- The classes that mark the lead paragraph. -/
def leadClasses : List (List Char) := ["lead".toList, "text-lg".toList, "text-xl".toList]

def isLead (attributes : List Char) : Bool :=
  (classAttribute.find? attributes).any fun found => (words (found.get 1)).any leadClasses.contains

/-- The text of the first lead paragraph that has any. -/
def leadText? (source : List Char) : Option String :=
  (paragraph.findAll source).findSome? fun found =>
    if isLead (found.get 1) then
      let text := plainText (found.get 2)
      if text.isEmpty then none else some (String.ofList text)
    else none

end Demo

/-- Reads a demo page; `package` is the component package that its import names. -/
def DemoPage.read (source : List Char) (package : String) : DemoPage where
  examples := Demo.examples source package
  description := Demo.leadText? source
  rows := Demo.propertyRows source

end UiCatalog
