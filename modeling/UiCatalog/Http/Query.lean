import UiCatalog.Json.Written
import UiCatalog.Text.Blank
import UiCatalog.Text.Utf8

/-!
# Query strings

A query string is a list of names and values in form encoding: plus signs stand for blanks, and bytes that
are not plain characters are written with a percent sign.
-/
namespace UiCatalog.Http.Query

open Text

/-- The byte of two hexadecimal digits. -/
def hexByte? (high low : UInt8) : Option UInt8 := do
  let h ← Json.Written.hexDigit? (Char.ofNat high.toNat)
  let l ← Json.Written.hexDigit? (Char.ofNat low.toNat)
  return UInt8.ofNat (h * 16 + l)

/-- Percent escapes as bytes; a percent sign without two hexadecimal digits stays. -/
def percentDecode : List UInt8 → List UInt8
  | b :: high :: low :: rest =>
    match if b = 0x25 then hexByte? high low else none with
    | some byte => byte :: percentDecode rest
    | none => b :: percentDecode (high :: low :: rest)
  | bytes => bytes

/-- A name or a value without its encoding. -/
def decodePart (s : List Char) : String :=
  let spaced := s.map fun c => if c = '+' then ' ' else c
  String.ofList (Utf8.decodeLossy (percentDecode (Utf8.encode (String.ofList spaced))))

/-- One name with its value, which is empty when there is no equals sign. -/
def decodePair (s : List Char) : String × String :=
  (decodePart (s.takeWhile (· != '=')), decodePart ((s.dropWhile (· != '=')).drop 1))

/-- The names and values of a query string, in order. -/
def pairs (query : List Char) : List (String × String) :=
  ((splitAt '&' query).filter fun piece => !piece.isEmpty).map decodePair

def values (name : String) (query : List Char) : List String :=
  ((pairs query).filter fun pair => pair.1 == name).map (·.2)

end UiCatalog.Http.Query
