import ClassAtlas.Json.Reader
import ClassAtlas.Text.Utf8

/-!
Query strings in form encoding: pairs separated by ampersands, each with an equals sign between key and
value. A plus sign stands for a space and a percent sign with two hexadecimal digits for a byte.
-/

namespace ClassAtlas

namespace Query

def hexByte? (high low : UInt8) : Option UInt8 := do
  let high ← Scan.hexValue? (Char.ofNat high.toNat)
  let low ← Scan.hexValue? (Char.ofNat low.toNat)
  return UInt8.ofNat (high * 16 + low)

/-- The bytes that an encoded text stands for. A percent sign without two digits stands for itself. -/
def decodeBytes : List UInt8 → List UInt8
  | [] => []
  | b :: bytes =>
    if b.toNat = '+'.toNat then 32 :: decodeBytes bytes
    else if b.toNat = '%'.toNat then
      match bytes with
      | high :: low :: rest =>
        match hexByte? high low with
        | some byte => byte :: decodeBytes rest
        | none => b :: decodeBytes (high :: low :: rest)
      | bytes => b :: decodeBytes bytes
    else b :: decodeBytes bytes

def decodeText (text : List Char) : String :=
  Utf8.lossyText (decodeBytes (String.ofList text).toUTF8.toList)

/-- The parts of a text between ampersands. -/
def parts : List Char → List (List Char)
  | [] => [[]]
  | c :: rest =>
    if c = '&' then [] :: parts rest
    else match parts rest with
      | [] => [[c]]
      | part :: more => (c :: part) :: more

/-- A part up to its first equals sign and after it. -/
def pair (part : List Char) : String × String :=
  (decodeText (part.takeWhile (· ≠ '=')), decodeText ((part.dropWhile (· ≠ '=')).drop 1))

/-- The pairs of a query string; empty parts are passed over. -/
def pairs (query : List Char) : List (String × String) :=
  ((parts query).filter (!·.isEmpty)).map pair

/-- The value of a key, which may come once. -/
def value? (key : String) : List (String × String) → Except Fault (Option String)
  | [] => .ok none
  | (k, v) :: rest =>
    if k = key then
      if rest.any fun (k, _) => k = key then .error (.duplicate key) else .ok (some v)
    else value? key rest

/-- The value of a key that must come. -/
def value (key : String) (pairs : List (String × String)) : Except Fault String := do
  match ← value? key pairs with
  | some v => .ok v
  | none => .error (.missing key)

end Query

end ClassAtlas
