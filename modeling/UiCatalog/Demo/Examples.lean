import UiCatalog.Demo.Section
import UiCatalog.Descriptor
import UiCatalog.Text.Utf8

/-!
# Examples of a demo page

The examples are the import of the component package, the code of the `Example` elements and the code of the
`CodeBlock` elements, in that order and no code twice. `dedent` cuts the indentation that all lines of a piece of
code share, and the blank lines around it.
-/
namespace UiCatalog.Code

open Text

def isLineFeed (c : Char) : Bool := c == '\n'

def trimLineFeeds (s : List Char) : List Char :=
  ((s.dropWhile isLineFeed).reverse.dropWhile isLineFeed).reverse

/-- The size in bytes of the blanks that a line starts with. -/
def indentSize (line : List Char) : Nat := byteSize (line.takeWhile isBlank)

/-- The smallest indentation of the lines that are not blank. -/
def commonIndent (ls : List (List Char)) : Nat :=
  (((ls.filter fun line => !isBlankText line).map indentSize).min?).getD 0

/-- A line without its first `n` bytes; one that is shorter, or that `n` cuts badly, loses all indent. -/
def cutIndent (n : Nat) (line : List Char) : List Char :=
  (dropBytes? n line).getD (trimStart line)

/-- The code without common indentation and without blanks at both ends. -/
def dedent (code : List Char) : List Char :=
  let ls := lines (trimEnd (trimLineFeeds code))
  trim (join ['\n'] (ls.map (cutIndent (commonIndent ls))))

end UiCatalog.Code

namespace UiCatalog.Demo

open Text Pattern Code

/-- An import statement with a `from` clause; group 1 is its module. -/
def importPattern : Pattern :=
  lineStart ++ many (fun c => c == ' ' || c == '\t') ++ text "import" ++ gap ++ few (· != ';') ++
    gap ++ text "from" ++ gap ++ one (fun c => c == '\'' || c == '"') ++
    group 1 (many1 (noneOf "'\"")) ++ one (fun c => c == '\'' || c == '"') ++ optional (char ';')

/-- A relative path with a segment `components`. -/
def relativeComponents : Pattern :=
  let up := char '.' ++ optional (char '.') ++ char '/'
  let segment := many1 (fun c => isWord c || c == '.' || c == '@' || c == '-') ++ char '/'
  textStart ++ up ++ repeated up ++ repeated segment ++ text "components" ++ (char '/' <|> textEnd)

/-- The module is the component package, a part of it, or a relative components path. -/
def isComponentModule (package module : List Char) : Bool :=
  module == package || ((stripStart? package module).bind List.head? == some '/') ||
    relativeComponents.isMatch module

/-- The first import of the component package, as an example. -/
def importExample? (source : List Char) (package : String) : Option Example :=
  ((importPattern.findAll source).find? fun found =>
    isComponentModule package.toList (found.get 1)).map fun found =>
      { title := "Import", code := String.ofList (trim found.chars), kind := .importLine }

/-- An element with a template literal as its code; group 1 is the inside of the literal. -/
def codeElement (name : String) : Pattern :=
  char '<' ++ optional (one Char.isUpper ++ many isWord) ++ text name ++ wordEdge ++
    few (· != '>') ++ wordEdge ++ text "code=\x7b" ++ blanks ++ char '\x60' ++
    group 1 (repeated (one (noneOf "\x60\\") <|> (char '\\' ++ one notLineFeed))) ++
    char '\x60' ++ blanks ++ char '\x7d'

/-- The text that a template literal stands for. -/
def unescapeTemplate (s : List Char) : List Char :=
  replace ['\\', '\\'] ['\\'] (replace ['\\', '$'] ['$'] (replace ['\\', '\x60'] ['\x60'] s))

/-- The examples found so far and the number of those without a section. -/
structure Collected where
  examples : List Example
  untitled : Nat

/-- Adds the code of one element, unless it is empty, known, or an import in a code block. -/
def Collected.add (sections : List Section) (kind : Example.Kind) (c : Collected) (found : Match) :
    Collected :=
  let code := dedent (unescapeTemplate (found.get 1))
  let text := String.ofList code
  if code.isEmpty || c.examples.any (·.code == text) then c
  else if kind == .codeBlock && "import".toList.isPrefixOf code then c
  else match titleBefore? sections found.start with
    | some title => { c with examples := c.examples ++ [⟨String.ofList title, text, kind⟩] }
    | none =>
      let n := c.untitled + 1
      { examples := c.examples ++ [⟨"Example " ++ toString n, text, kind⟩], untitled := n }

def examples (source : List Char) (package : String) : List Example :=
  let sections := sections source
  let start : Collected := ⟨(importExample? source package).toList, 0⟩
  let live := ((codeElement "Example").findAll source).foldl (·.add sections .live ·) start
  let blocks := ((codeElement "CodeBlock").findAll source).foldl (·.add sections .codeBlock ·) live
  blocks.examples

end UiCatalog.Demo
