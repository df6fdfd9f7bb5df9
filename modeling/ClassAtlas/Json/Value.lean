/-!
JSON values and the two ways of writing them: compact, without blanks, and pretty, with a line per item
and two spaces per level. Members keep the order in which they are given. Only quotes, backslashes and
control characters are escaped.
-/

namespace ClassAtlas

inductive Json
  | null
  | bool (value : Bool)
  | number (value : Nat)
  | string (value : String)
  | array (items : List Json)
  | object (members : List (String × Json))

namespace Json

def ofOption {α : Type} (write : α → Json) : Option α → Json
  | none => .null
  | some a => write a

def ofList {α : Type} (write : α → Json) (as : List α) : Json := .array (as.map write)

def ofChar (c : Char) : Json := .string (String.singleton c)

/-- A member that is left out when its value is absent. -/
def member? {α : Type} (key : String) (write : α → Json) : Option α → List (String × Json)
  | none => []
  | some a => [(key, write a)]

/-- A list member that is left out when the list is empty. -/
def listMember? {α : Type} (key : String) (write : α → Json) (as : List α) : List (String × Json) :=
  if as.isEmpty then [] else [(key, ofList write as)]

def hexDigit (n : Nat) : Char := Nat.digitChar (n % 16)

def escapeChar (c : Char) : List Char :=
  if c = '"' then ['\\', '"']
  else if c = '\\' then ['\\', '\\']
  else if c = '\n' then ['\\', 'n']
  else if c = '\r' then ['\\', 'r']
  else if c = '\t' then ['\\', 't']
  else if c = '\x08' then ['\\', 'b']
  else if c = '\x0c' then ['\\', 'f']
  else if c.toNat < 0x20 then ['\\', 'u', '0', '0', hexDigit (c.toNat / 16), hexDigit c.toNat]
  else [c]

/-- The quoted form of a text, in front of `rest`. -/
def quoteOnto (text : List Char) (rest : List Char) : List Char :=
  '"' :: text.flatMap escapeChar ++ '"' :: rest

mutual

/-- The compact form of a value, in front of `rest`. -/
def writeOnto (rest : List Char) : Json → List Char
  | .null => "null".toList ++ rest
  | .bool true => "true".toList ++ rest
  | .bool false => "false".toList ++ rest
  | .number n => (Nat.repr n).toList ++ rest
  | .string s => quoteOnto s.toList rest
  | .array [] => '[' :: ']' :: rest
  | .array (item :: items) => '[' :: writeOnto (writeItemsOnto rest items) item
  | .object [] => '\x7b' :: '\x7d' :: rest
  | .object ((key, value) :: members) =>
    '\x7b' :: quoteOnto key.toList (':' :: writeOnto (writeMembersOnto rest members) value)

/-- The further items of an array, each after a comma, and the closing bracket. -/
def writeItemsOnto (rest : List Char) : List Json → List Char
  | [] => ']' :: rest
  | item :: items => ',' :: writeOnto (writeItemsOnto rest items) item

/-- The further members of an object, each after a comma, and the closing brace. -/
def writeMembersOnto (rest : List Char) : List (String × Json) → List Char
  | [] => '\x7d' :: rest
  | (key, value) :: members =>
    ',' :: quoteOnto key.toList (':' :: writeOnto (writeMembersOnto rest members) value)

end

/-- A line break and the indentation of a level. -/
def newline (level : Nat) (rest : List Char) : List Char :=
  '\n' :: List.replicate (2 * level) ' ' ++ rest

mutual

/-- The pretty form of a value that stands on a line of the given level. -/
def prettyOnto (level : Nat) (rest : List Char) : Json → List Char
  | .array (item :: items) =>
    '[' :: newline (level + 1) (prettyOnto (level + 1) (prettyItemsOnto level rest items) item)
  | .object ((key, value) :: members) =>
    '\x7b' :: newline (level + 1)
      (quoteOnto key.toList (':' :: ' ' ::
        prettyOnto (level + 1) (prettyMembersOnto level rest members) value))
  | .null => writeOnto rest .null
  | .bool b => writeOnto rest (.bool b)
  | .number n => writeOnto rest (.number n)
  | .string s => writeOnto rest (.string s)
  | .array [] => writeOnto rest (.array [])
  | .object [] => writeOnto rest (.object [])

def prettyItemsOnto (level : Nat) (rest : List Char) : List Json → List Char
  | [] => newline level (']' :: rest)
  | item :: items =>
    ',' :: newline (level + 1) (prettyOnto (level + 1) (prettyItemsOnto level rest items) item)

def prettyMembersOnto (level : Nat) (rest : List Char) : List (String × Json) → List Char
  | [] => newline level ('\x7d' :: rest)
  | (key, value) :: members =>
    ',' :: newline (level + 1)
      (quoteOnto key.toList (':' :: ' ' ::
        prettyOnto (level + 1) (prettyMembersOnto level rest members) value))

end

def compact (j : Json) : String := String.ofList (j.writeOnto [])

def pretty (j : Json) : String := String.ofList (j.prettyOnto 0 [])

end Json

end ClassAtlas
