/-!
# UTF-8

A text takes up UTF-8 bytes. A place counted in bytes lies between two characters or inside of one; a text can
only be cut at places of the first kind.

A text in UTF-8 is a sequence of characters of one to four bytes. `decode` reads all of it or says where it
breaks off; `decodeLossy` puts a replacement character in the place of every broken sequence.
-/
namespace UiCatalog.Text

/-- The size of a text in UTF-8 bytes. -/
def byteSize (s : List Char) : Nat := s.foldr (fun c n => c.utf8Size + n) 0

/-- The rest behind the first `n` bytes, if these are whole characters of the text. -/
def dropBytes? : Nat → List Char → Option (List Char)
  | 0, s => some s
  | _ + 1, [] => none
  | n + 1, c :: cs => if c.utf8Size ≤ n + 1 then dropBytes? (n + 1 - c.utf8Size) cs else none

/-- The first `n` bytes, if these are whole characters of the text. -/
def takeBytes? : Nat → List Char → Option (List Char)
  | 0, _ => some []
  | _ + 1, [] => none
  | n + 1, c :: cs =>
    if c.utf8Size ≤ n + 1 then (takeBytes? (n + 1 - c.utf8Size) cs).map (c :: ·) else none

/-- The text from one place up to another. -/
def slice? (start stop : Nat) (s : List Char) : Option (List Char) :=
  (dropBytes? start s).bind (takeBytes? (stop - start))

namespace Utf8

/-- What stands at the start of a byte sequence. -/
inductive Front where
  /-- A character of `size` bytes. -/
  | char (c : Char) (size : Nat)
  /-- The start of a character that goes no further than `size` bytes. -/
  | broken (size : Nat)
  /-- The start of a character that the end cuts off. -/
  | cut

/-- The number of bytes after a lead byte, its own bits, and the range of the byte behind it. -/
def lead? (b : Nat) : Option (Nat × Nat × Nat × Nat) :=
  if 0xC2 ≤ b ∧ b ≤ 0xDF then some (1, b - 0xC0, 0x80, 0xBF)
  else if b = 0xE0 then some (2, 0, 0xA0, 0xBF)
  else if b = 0xED then some (2, 0xD, 0x80, 0x9F)
  else if 0xE1 ≤ b ∧ b ≤ 0xEF then some (2, b - 0xE0, 0x80, 0xBF)
  else if b = 0xF0 then some (3, 0, 0x90, 0xBF)
  else if 0xF1 ≤ b ∧ b ≤ 0xF3 then some (3, b - 0xF0, 0x80, 0xBF)
  else if b = 0xF4 then some (3, 4, 0x80, 0x8F)
  else none

/-- Reads the bytes behind a lead byte, of which the next lies between two bounds. -/
def follow (size bits low high : Nat) : Nat → List UInt8 → Front
  | 0, _ => .char (Char.ofNat bits) size
  | _ + 1, [] => .cut
  | more + 1, b :: bs =>
    if low ≤ b.toNat ∧ b.toNat ≤ high then
      follow (size + 1) (bits * 0x40 + (b.toNat - 0x80)) 0x80 0xBF more bs
    else .broken size

/-- What stands at the start of `b :: bs`. -/
def front (b : UInt8) (bs : List UInt8) : Front :=
  if b.toNat < 0x80 then .char (Char.ofNat b.toNat) 1
  else match lead? b.toNat with
    | some (more, bits, low, high) => follow 1 bits low high more bs
    | none => .broken 1

/-- Where and how a byte sequence stops being text. -/
structure Break where
  /-- The number of bytes before it. -/
  index : Nat
  /-- The size of the broken sequence, unless the end cuts it off. -/
  size : Option Nat
  deriving DecidableEq, Repr

def Break.message (b : Break) : String :=
  match b.size with
  | some size =>
    "invalid utf-8 sequence of " ++ toString size ++ " bytes from index " ++ toString b.index
  | none => "incomplete utf-8 byte sequence from index " ++ toString b.index

/-- Reads from byte `index` on, after `skip` bytes that belong to the last character. -/
def decodeFrom (skip index : Nat) : List UInt8 → Except Break (List Char)
  | [] => .ok []
  | b :: bs =>
    match skip with
    | skip + 1 => decodeFrom skip (index + 1) bs
    | 0 =>
      match front b bs with
      | .char c size => (decodeFrom (size - 1) (index + 1) bs).map (c :: ·)
      | .broken size => .error ⟨index, some size⟩
      | .cut => .error ⟨index, none⟩

def decode (bytes : List UInt8) : Except Break (List Char) := decodeFrom 0 0 bytes

def text? (bytes : List UInt8) : Option String := (decode bytes).toOption.map String.ofList

def replacement : Char := '\uFFFD'

/-- The characters after `skip` bytes, broken sequences replaced. -/
def decodeLossyFrom (skip : Nat) : List UInt8 → List Char
  | [] => []
  | b :: bs =>
    match skip with
    | skip + 1 => decodeLossyFrom skip bs
    | 0 =>
      match front b bs with
      | .char c size => c :: decodeLossyFrom (size - 1) bs
      | .broken size => replacement :: decodeLossyFrom (size - 1) bs
      | .cut => [replacement]

/-- The characters of a byte sequence, each broken sequence replaced by one character. -/
def decodeLossy (bytes : List UInt8) : List Char := decodeLossyFrom 0 bytes

/-- The bytes of a text. -/
def encode (s : String) : List UInt8 := s.toUTF8.toList

end Utf8

end UiCatalog.Text
