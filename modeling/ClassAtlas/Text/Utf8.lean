/-!
UTF-8. Decoding takes bytes apart into characters and malformed parts; a malformed part is as much of a
character as was right before the byte that does not continue it.
-/

namespace ClassAtlas

namespace Utf8

/-- What the first byte of a character tells: the bits it gives, the range of the second byte, and how
many bytes follow. -/
def lead? (b : Nat) : Option (Nat × Nat × Nat × Nat) :=
  if b < 0x80 then some (b, 0x80, 0xBF, 0)
  else if b < 0xC2 then none
  else if b < 0xE0 then some (b - 0xC0, 0x80, 0xBF, 1)
  else if b = 0xE0 then some (0, 0xA0, 0xBF, 2)
  else if b = 0xED then some (b - 0xE0, 0x80, 0x9F, 2)
  else if b < 0xF0 then some (b - 0xE0, 0x80, 0xBF, 2)
  else if b = 0xF0 then some (0, 0x90, 0xBF, 3)
  else if b < 0xF4 then some (b - 0xF0, 0x80, 0xBF, 3)
  else if b = 0xF4 then some (b - 0xF0, 0x80, 0x8F, 3)
  else none

/-- The code point after `count` more bytes, if they continue it, and the bytes after those that do. -/
def continue? : Nat → Nat → Nat → Nat → List UInt8 → Option Nat × List UInt8
  | 0, _, _, bits, bytes => (some bits, bytes)
  | _ + 1, _, _, _, [] => (none, [])
  | count + 1, low, high, bits, b :: bytes =>
    if low ≤ b.toNat && b.toNat ≤ high then
      continue? count 0x80 0xBF (bits * 64 + (b.toNat - 0x80)) bytes
    else (none, b :: bytes)

/-- The character at the start of the bytes `b :: bytes`, none where it is malformed, and the rest. -/
def next (b : UInt8) (bytes : List UInt8) : Option Char × List UInt8 :=
  match lead? b.toNat with
  | none => (none, bytes)
  | some (bits, low, high, count) =>
    let (found, rest) := continue? count low high bits bytes
    (found.map Char.ofNat, rest)

def decodeUpTo : Nat → List UInt8 → List (Option Char)
  | fuel + 1, b :: bytes =>
    let (found, rest) := next b bytes
    found :: decodeUpTo fuel rest
  | _, _ => []

/-- The characters of the bytes in order, with none for each malformed part. -/
def decode (bytes : List UInt8) : List (Option Char) := decodeUpTo bytes.length bytes

/-- The text of well-formed bytes. -/
def text? (bytes : List UInt8) : Option String := ((decode bytes).mapM id).map String.ofList

/-- The text of any bytes, with a replacement character for each malformed part. -/
def lossyText (bytes : List UInt8) : String :=
  String.ofList ((decode bytes).map fun c => c.getD '\ufffd')

end Utf8

end ClassAtlas
