import ClassAtlas.Json.Numeral

/-!
What a text holds as JSON, as far as it is well formed. Readers go through a document from left to
right, so that the first thing wrong is the one they report: a part that could not be scanned stands in
the document as a broken value at its place, and nothing follows it.
-/

namespace ClassAtlas

inductive Document
  | null
  | bool (value : Bool)
  | number (value : Numeral)
  /-- A text; none where an escape names half of a surrogate pair. -/
  | string (value : Option String)
  /-- The items up to the closing bracket, or up to where the array breaks off. -/
  | array (items : List Document) (complete : Bool)
  | object (members : List (Option String × Document)) (complete : Bool)
  /-- An array or object below the nesting limit. -/
  | deep (inner : Document)
  | broken

/-- Arrays and objects nest at most this deep. -/
def nestingLimit : Nat := 127

namespace Document

mutual

/-- No syntax error within, which is all that is asked of a value nobody reads. -/
def wellFormed : Document → Bool
  | .null | .bool _ | .number _ | .string _ => true
  | .array items complete => wellFormedItems items && complete
  | .object members complete => wellFormedMembers members && complete
  | .deep inner => wellFormed inner
  | .broken => false

def wellFormedItems : List Document → Bool
  | [] => true
  | item :: items => wellFormed item && wellFormedItems items

def wellFormedMembers : List (Option String × Document) → Bool
  | [] => true
  | (_, value) :: members => wellFormed value && wellFormedMembers members

end

mutual

/-- A value that may be kept for later: well formed, within the nesting limit, its texts made of
characters and its numbers finite. -/
def sound : Document → Bool
  | .null | .bool _ => true
  | .number n => n.inRange
  | .string s => s.isSome
  | .array items complete => soundItems items && complete
  | .object members complete => soundMembers members && complete
  | .deep _ | .broken => false

def soundItems : List Document → Bool
  | [] => true
  | item :: items => sound item && soundItems items

def soundMembers : List (Option String × Document) → Bool
  | [] => true
  | (key, value) :: members => key.isSome && sound value && soundMembers members

end

end Document

namespace Scan

def isBlank (c : Char) : Bool := c = ' ' || c = '\n' || c = '\t' || c = '\r'

def skipBlanks (text : List Char) : List Char := text.dropWhile isBlank

def hexValue? (c : Char) : Option Nat :=
  if c.isDigit then some (c.toNat - '0'.toNat)
  else if 'a' ≤ c && c ≤ 'f' then some (c.toNat - 'a'.toNat + 10)
  else if 'A' ≤ c && c ≤ 'F' then some (c.toNat - 'A'.toNat + 10)
  else none

def escaped? : Char → Option Char
  | '"' => some '"'
  | '\\' => some '\\'
  | '/' => some '/'
  | 'b' => some '\x08'
  | 'f' => some '\x0c'
  | 'n' => some '\n'
  | 'r' => some '\r'
  | 't' => some '\t'
  | _ => none

def hexUnit? (a b c d : Char) : Option Nat := do
  return ((← hexValue? a) * 16 + (← hexValue? b)) * 256 + (← hexValue? c) * 16 + (← hexValue? d)

/-- The code units of a quoted text after its opening quote, and what follows the closing one. -/
def units? : List Char → Option (List Nat × List Char)
  | [] => none
  | '"' :: rest => some ([], rest)
  | '\\' :: 'u' :: a :: b :: c :: d :: rest => do
    let unit ← hexUnit? a b c d
    let (units, rest) ← units? rest
    return (unit :: units, rest)
  | '\\' :: c :: rest => do
    let char ← escaped? c
    let (units, rest) ← units? rest
    return (char.toNat :: units, rest)
  | c :: rest =>
    if c.toNat < 0x20 then none
    else do
      let (units, rest) ← units? rest
      return (c.toNat :: units, rest)

def isHighSurrogate (n : Nat) : Bool := 0xD800 ≤ n && n < 0xDC00

def isLowSurrogate (n : Nat) : Bool := 0xDC00 ≤ n && n < 0xE000

/-- The characters that code units stand for: a high and a low surrogate together make one character,
and a surrogate alone makes none. -/
def decode? : List Nat → Option (List Char)
  | [] => some []
  | [unit] =>
    if isHighSurrogate unit || isLowSurrogate unit then none else some [Char.ofNat unit]
  | high :: low :: rest =>
    if isHighSurrogate high && isLowSurrogate low then
      (decode? rest).map (Char.ofNat (0x10000 + (high - 0xD800) * 0x400 + (low - 0xDC00)) :: ·)
    else if isHighSurrogate high || isLowSurrogate high then none
    else (decode? (low :: rest)).map (Char.ofNat high :: ·)

/-- A quoted text after its opening quote. -/
def string? (text : List Char) : Option (Option String × List Char) :=
  (units? text).map fun (units, rest) => ((decode? units).map String.ofList, rest)

/-- Reads the word if the text starts with it. -/
def word (expected : List Char) (value : Document) (text : List Char) : Document × List Char :=
  if text.take expected.length = expected then (value, text.drop expected.length) else (.broken, [])

mutual

/-- The value at the start of a text and what follows it. Scanning takes at most two steps a character,
so fuel for those is enough; `level` counts the arrays and objects that may still be opened. -/
def value : Nat → Nat → List Char → Document × List Char
  | 0, _, _ => (.broken, [])
  | fuel + 1, level, text =>
    match skipBlanks text with
    | '"' :: rest =>
      match string? rest with
      | some (s, rest) => (.string s, rest)
      | none => (.broken, [])
    | '[' :: rest =>
      match level with
      | 0 => let (inner, rest) := array fuel 0 rest; (.deep inner, rest)
      | level + 1 => array fuel level rest
    | '\x7b' :: rest =>
      match level with
      | 0 => let (inner, rest) := object fuel 0 rest; (.deep inner, rest)
      | level + 1 => object fuel level rest
    | 'n' :: rest => word "ull".toList .null rest
    | 't' :: rest => word "rue".toList (.bool true) rest
    | 'f' :: rest => word "alse".toList (.bool false) rest
    | text =>
      match Numeral.scan? text with
      | some (n, rest) => (.number n, rest)
      | none => (.broken, [])
termination_by structural fuel => fuel

def array : Nat → Nat → List Char → Document × List Char
  | 0, _, _ => (.broken, [])
  | fuel + 1, level, text =>
    match skipBlanks text with
    | ']' :: rest => (.array [] true, rest)
    | text => let (found, complete, rest) := items fuel level text; (.array found complete, rest)
termination_by structural fuel => fuel

/-- One or more items up to the closing bracket, and whether it was reached. -/
def items : Nat → Nat → List Char → List Document × Bool × List Char
  | 0, _, _ => ([], false, [])
  | fuel + 1, level, text =>
    let (item, rest) := value fuel level text
    match skipBlanks rest with
    | ',' :: rest => let (more, complete, rest) := items fuel level rest; (item :: more, complete, rest)
    | ']' :: rest => ([item], true, rest)
    | _ => ([item], false, [])
termination_by structural fuel => fuel

def object : Nat → Nat → List Char → Document × List Char
  | 0, _, _ => (.broken, [])
  | fuel + 1, level, text =>
    match skipBlanks text with
    | '\x7d' :: rest => (.object [] true, rest)
    | text =>
      let (found, complete, rest) := members fuel level text
      (.object found complete, rest)
termination_by structural fuel => fuel

/-- One or more members up to the closing brace, and whether it was reached. -/
def members : Nat → Nat → List Char → List (Option String × Document) × Bool × List Char
  | 0, _, _ => ([], false, [])
  | fuel + 1, level, text =>
    match skipBlanks text with
    | '"' :: rest =>
      match string? rest with
      | none => ([], false, [])
      | some (key, rest) =>
        match skipBlanks rest with
        | ':' :: rest =>
          let (found, rest) := value fuel level rest
          match skipBlanks rest with
          | ',' :: rest =>
            let (more, complete, rest) := members fuel level rest
            ((key, found) :: more, complete, rest)
          | '\x7d' :: rest => ([(key, found)], true, rest)
          | _ => ([(key, found)], false, [])
        | _ => ([(key, .broken)], false, [])
    | _ => ([], false, [])
termination_by structural fuel => fuel

end

/-- The document of a text, and whether only blanks follow it. -/
def document (text : List Char) : Document × Bool :=
  let (found, rest) := value (2 * text.length + 1) nestingLimit text
  (found, (skipBlanks rest).isEmpty)

end Scan

end ClassAtlas
