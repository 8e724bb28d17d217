import UiCatalog.Code.Bracket
import UiCatalog.OrderedMap
import UiCatalog.Pattern

/-!
# Style variant configurations

A binding to a `cva` call declares the style variants of a component: a list of base classes, the
categories with their options, and a default option for some of them. `VariantConfig.all` reads every such
binding of a source.
-/
namespace UiCatalog

/-- The style variants declared by one binding. -/
structure VariantConfig where
  name : String
  /-- The base classes with single spaces between them. -/
  base : String
  /-- The options of every category, in source order. -/
  variants : OrderedMap (List String)
  /-- The default option of categories, which need not be among `variants`. -/
  defaults : OrderedMap String
  deriving DecidableEq, Repr

namespace VariantConfig

open Text Pattern Code

/-- The start of a binding up to the bracket of the call; group 1 is the bound name. -/
def bindingPattern : Pattern :=
  bindingKeyword ++ gap ++ group 1 identifier ++ blanks ++ char '=' ++ blanks ++ text "cva" ++
    blanks ++ char '('

/-- The body of an object literal, if the value is one. -/
def objectBody? (value : List Char) : Option (List Char) :=
  match trim value with
  | '\x7b' :: rest => bracketBody? ('\x7b' :: rest) 0
  | _ => none

/-- The base classes: a string, or an array of strings; any other expression is kept as it is. -/
def readBase (argument : List Char) : List Char :=
  let argument := trim argument
  match unquote? argument with
  | some classes => squeeze classes
  | none =>
    if argument.head? = some '[' then
      match bracketBody? argument 0 with
      | some items => join [' '] (((splitTopLevel ',' items).filterMap unquote?).flatMap words)
      | none => argument
    else argument

/-- The option names of a category, each once. -/
def readOptions (options : List Char) : List String :=
  (objectEntries options).foldl
    (fun names (key, _) =>
      let name := String.ofList key
      if names.contains name then names else names ++ [name])
    []

/-- The categories of a `variants` object; an entry that is no object is left out. -/
def readCategories (value : List Char) : OrderedMap (List String) :=
  OrderedMap.ofList <| (objectEntries ((objectBody? value).getD [])).filterMap fun (key, options) =>
    (objectBody? options).map fun body => (String.ofList key, readOptions body)

/-- The entries of a `defaultVariants` object that name an option. -/
def readDefaults (value : List Char) : OrderedMap String :=
  OrderedMap.ofList <| (objectEntries ((objectBody? value).getD [])).filterMap fun (key, option) =>
    let option := trim ((unquote? option).getD option)
    if option.isEmpty then none else some (String.ofList key, String.ofList option)

/-- The value of the last entry with the given key. -/
def lastValue? (key : String) (entries : List (List Char × List Char)) : Option (List Char) :=
  ((entries.filter fun e => e.1 == key.toList).getLast?).map (·.2)

/-- Reads the arguments of a call whose second one is an object literal. -/
def ofArguments? (name arguments : List Char) : Option VariantConfig :=
  match splitTopLevel ',' arguments with
  | base :: config :: _ =>
    (objectBody? config).map fun body =>
      let entries := objectEntries body
      { name := String.ofList name
        base := String.ofList (readBase base)
        variants := ((lastValue? "variants" entries).map readCategories).getD .empty
        defaults := ((lastValue? "defaultVariants" entries).map readDefaults).getD .empty }
  | _ => none

/-- Every variant configuration of a source, in order. -/
def all (source : List Char) : List VariantConfig :=
  (bindingPattern.findAll source).filterMap fun found =>
    (bracketBody? source (found.stop - 1)).bind (ofArguments? (found.get 1))

/-- The first variant configuration of a source. -/
def first? (source : List Char) : Option VariantConfig := (all source).head?

end VariantConfig

end UiCatalog
