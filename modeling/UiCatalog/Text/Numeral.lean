import UiCatalog.Text.Case

/-!
# Numbers in texts

A decimal number is written with a sign, a point and an exponent, all of which may be missing.
-/
namespace UiCatalog.Text

/-- At least one digit, and nothing else. -/
def areDigits (s : List Char) : Bool := !s.isEmpty && s.all Char.isDigit

/-- Digits with at most one point among them. -/
def isPlainNumber (s : List Char) : Bool :=
  let whole := s.takeWhile Char.isDigit
  match s.drop whole.length with
  | [] => !whole.isEmpty
  | '.' :: fraction => fraction.all Char.isDigit && !(whole.isEmpty && fraction.isEmpty)
  | _ => false

def unsigned : List Char → List Char
  | '-' :: s => s
  | '+' :: s => s
  | s => s

def isExponentMark (c : Char) : Bool := c == 'e' || c == 'E'

/-- A decimal number with an optional sign, point and exponent, or the name of an infinity or no number. -/
def isNumeric (s : List Char) : Bool :=
  let s := unsigned s
  let mantissa := s.takeWhile fun c => !isExponentMark c
  let isDecimal := isPlainNumber mantissa &&
    match s.drop mantissa.length with
    | [] => true
    | _ :: exponent => areDigits (unsigned exponent)
  isDecimal || ["inf".toList, "infinity".toList, "nan".toList].contains (asciiLower s)

end UiCatalog.Text
