/-!
# Code, strings and comments

A scanner that knows just enough of component sources to tell code from the insides of string literals
and comments. `mark` labels every character of a text; everything that looks for brackets or separators
works on the labelled text.
-/
namespace UiCatalog.Code

/-- Where the scanner stands between two characters. -/
inductive Region where
  | code
  /-- Inside a string literal ended by `quote`. -/
  | quoted (quote : Char)
  /-- Behind a backslash inside such a literal. -/
  | escaped (quote : Char)
  | lineComment
  /-- Before the star that opens a block comment. -/
  | blockOpening
  | blockComment
  /-- Before the slash that closes a block comment. -/
  | blockClosing
  deriving DecidableEq, Repr

def isQuote (c : Char) : Bool := c == '\'' || c == '"' || c == '\x60'

/--
Whether `c`, followed by `next`, is a character of code, and where the scanner stands after it. Quotes and
comment marks are not code; the line feed that ends a line comment is.
-/
def Region.step (c : Char) (next : Option Char) : Region → Bool × Region
  | .code =>
    if isQuote c then (false, .quoted c)
    else if c = '/' ∧ next = some '/' then (false, .lineComment)
    else if c = '/' ∧ next = some '*' then (false, .blockOpening)
    else (true, .code)
  | .quoted quote =>
    if c = '\\' then (false, .escaped quote)
    else if c = quote then (false, .code)
    else (false, .quoted quote)
  | .escaped quote => (false, .quoted quote)
  | .lineComment => if c = '\n' then (true, .code) else (false, .lineComment)
  | .blockOpening => (false, .blockComment)
  | .blockComment =>
    if c = '*' ∧ next = some '/' then (false, .blockClosing) else (false, .blockComment)
  | .blockClosing => (false, .code)

/-- Every character from `region` on with the label that says whether it is code. -/
def Region.mark (region : Region) : List Char → List (Char × Bool)
  | [] => []
  | c :: cs =>
    let (isCode, after) := region.step c cs.head?
    (c, isCode) :: after.mark cs

/-- Every character of a text with the label that says whether it is code. -/
def mark (s : List Char) : List (Char × Bool) := Region.code.mark s

@[simp] theorem Region.map_fst_mark (region : Region) (s : List Char) :
    (region.mark s).map Prod.fst = s := by
  induction s generalizing region with
  | nil => rfl
  | cons c cs ih => simp [Region.mark, ih]

@[simp] theorem map_fst_mark (s : List Char) : (mark s).map Prod.fst = s :=
  Region.map_fst_mark _ s

end UiCatalog.Code
