import ClassAtlas.Json.Document

/-!
Hosts that a server can listen on: an IPv4 address in dotted form, or an IPv6 address in brackets. Each
reader gives what follows the part that it reads.
-/

namespace ClassAtlas

namespace Host

/-- A decimal number below 256 without leading zeros. -/
def afterOctet (text : List Char) : Option (List Char) :=
  let digits := text.takeWhile (·.isDigit)
  if digits.isEmpty || 3 < digits.length then none
  else if digits.head? = some '0' && 1 < digits.length then none
  else if Numeral.digitsValue digits < 256 then some (text.dropWhile (·.isDigit))
  else none

/-- An octet and `more` octets after it, each behind a dot. -/
def afterOctets : Nat → List Char → Option (List Char)
  | 0, text => afterOctet text
  | more + 1, text =>
    match afterOctet text with
    | some ('.' :: rest) => afterOctets more rest
    | _ => none

def afterIPv4 (text : List Char) : Option (List Char) := afterOctets 3 text

def isHexDigit (c : Char) : Bool := (Scan.hexValue? c).isSome

/-- One to four hexadecimal digits. -/
def afterGroup (text : List Char) : Option (List Char) :=
  let digits := text.takeWhile isHexDigit
  if digits.isEmpty || 4 < digits.length then none else some (text.dropWhile isHexDigit)

/-- The place after the colon that separates groups; the first group has none. -/
def afterColon (first : Bool) (text : List Char) : Option (List Char) :=
  if first then some text
  else match text with
    | ':' :: rest => some rest
    | _ => none

structure Groups where
  count : Nat
  /-- The last two groups are written as an IPv4 address. -/
  endsInIPv4 : Bool
  rest : List Char

/-- As many groups as the text has, up to `room`. -/
def groups : Nat → Bool → List Char → Groups
  | 0, _, text => ⟨0, false, text⟩
  | room + 1, first, text =>
    match afterColon first text with
    | none => ⟨0, false, text⟩
    | some body =>
      match if 0 < room then afterIPv4 body else none with
      | some rest => ⟨2, true, rest⟩
      | none =>
        match afterGroup body with
        | none => ⟨0, false, text⟩
        | some rest =>
          let more := groups room false rest
          { more with count := more.count + 1 }

/-- Eight groups, or fewer with a double colon for at least one group of zeros. -/
def afterIPv6 (text : List Char) : Option (List Char) :=
  let front := groups 8 true text
  if front.count = 8 then some front.rest
  else if front.endsInIPv4 then none
  else match front.rest with
    | ':' :: ':' :: rest => some (groups (7 - front.count) true rest).rest
    | _ => none

/-- The number of a scope after a percent sign, if there is one below 2 ^ 32. -/
def afterScope : List Char → List Char
  | '%' :: text =>
    let digits := text.takeWhile (·.isDigit)
    if digits.isEmpty || Nat.pow 2 32 ≤ Numeral.digitsValue digits then '%' :: text
    else text.dropWhile (·.isDigit)
  | text => text

def isAddress (text : List Char) : Bool :=
  match text with
  | '[' :: address => (afterIPv6 address).map afterScope == some [']']
  | address => afterIPv4 address == some []

end Host

end ClassAtlas
