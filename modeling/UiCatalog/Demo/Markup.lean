import UiCatalog.Pattern

/-!
# Text of markup

`plainText` reduces a fragment of markup to one line of text: string expressions give their text, tags go,
entities are decoded, and white space is squeezed.
-/
namespace UiCatalog.Demo

open Text Pattern

def isQuoteMark (c : Char) : Bool := c == '"' || c == '\'' || c == '\x60'

/-- A text in one kind of quotes that does not hold that quote; the group is the text. -/
def quotedBy (quote : Char) (index : Nat) : Pattern :=
  char quote ++ group index (many (· != quote)) ++ char quote

/-- A string expression in braces; one of groups 1 to 3 is its text. -/
def stringExpression : Pattern :=
  char '\x7b' ++ blanks ++ (quotedBy '"' 1 <|> quotedBy '\'' 2 <|> quotedBy '\x60' 3) ++ blanks ++
    char '\x7d'

def tag : Pattern := char '<' ++ many1 (· != '>') ++ char '>'

/-- The entities, in the order in which they are decoded. -/
def entities : List (String × String) :=
  [("&lt;", "<"), ("&gt;", ">"), ("&quot;", "\""), ("&#39;", "'"), ("&amp;", "&")]

def decodeEntities (s : List Char) : List Char :=
  entities.foldl (fun s (entity, meaning) => replace entity.toList meaning.toList s) s

/-- A fragment of markup as one line of text. -/
def plainText (fragment : List Char) : List Char :=
  let unwrapped := stringExpression.replaceAll (fun m => (m.firstOf [1, 2, 3]).getD []) fragment
  squeeze (decodeEntities (tag.replaceAll (fun _ => []) unwrapped))

end UiCatalog.Demo
