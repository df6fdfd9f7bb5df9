import ClassAtlas.Enumeration
import ClassAtlas.Json.Document

/-!
Readers turn documents into values or into the first fault met on the way from left to right.
-/

namespace ClassAtlas

inductive Fault
  | missing (field : String)
  | duplicate (field : String)
  | unknownVariant (given : String) (expected : List String)
  /-- Anything else: a syntax error, a value of another type, too many or too few items. -/
  | invalid
deriving DecidableEq

namespace Fault

def quoted (s : String) : String := "`" ++ s ++ "`"

def expectation : List String → String
  | [] => "there are no variants"
  | [a] => "expected " ++ quoted a
  | [a, b] => "expected " ++ quoted a ++ " or " ++ quoted b
  | variants => "expected one of " ++ ", ".intercalate (variants.map quoted)

def message : Fault → String
  | missing field => "missing field " ++ quoted field
  | duplicate field => "duplicate field " ++ quoted field
  | unknownVariant given expected => "unknown variant " ++ quoted given ++ ", " ++ expectation expected
  | invalid => "invalid"

end Fault

abbrev Reader (α : Type) := Document → Except Fault α

namespace Reader

variable {α : Type}

def string : Reader String
  | .string (some s) => .ok s
  | _ => .error .invalid

def bool : Reader Bool
  | .bool b => .ok b
  | _ => .error .invalid

/-- A text of one character. -/
def char : Reader Char
  | .string (some s) => match s.toList with
    | [c] => .ok c
    | _ => .error .invalid
  | _ => .error .invalid

/-- A natural number below `bound`. -/
def natural (bound : Nat) : Reader Nat
  | .number n => match n.natural? with
    | some k => if k < bound then .ok k else .error .invalid
    | none => .error .invalid
  | _ => .error .invalid

def optional (read : Reader α) : Reader (Option α)
  | .null => .ok none
  | d => (read d).map some

def each (read : Reader α) : List Document → Except Fault (List α)
  | [] => .ok []
  | d :: ds => do
    let a ← read d
    let as ← each read ds
    return a :: as

def list (read : Reader α) : Reader (List α)
  | .array items complete => do
    let as ← each read items
    if complete then .ok as else .error .invalid
  | _ => .error .invalid

/-- The value of a variant, by its name. -/
def pick (variants : List (String × α)) (name : String) : Except Fault α :=
  match variants.lookup name with
  | some a => .ok a
  | none => .error (.unknownVariant name (variants.map (·.1)))

/-- A variant without content: its name, or an object with that one key and null. -/
def variant (variants : List (String × α)) : Reader α
  | .string (some name) => pick variants name
  | .object ((some name, content) :: more) complete => do
    let a ← pick variants name
    match content, more, complete with
    | .null, [], true => .ok a
    | _, _, _ => .error .invalid
  | _ => .error .invalid

/-- A variant without content in a value that was kept for later: there an object stands for null too
if it is empty, and one with several keys is refused before its first key is looked at. -/
def keptVariant (variants : List (String × α)) : Reader α
  | .string (some name) => pick variants name
  | .object [(some name, content)] _ => do
    let a ← pick variants name
    match content with
    | .null | .object [] _ => .ok a
    | _ => .error .invalid
  | _ => .error .invalid

/-- The document of a text that holds nothing else, read. -/
def parse (read : Reader α) (text : String) : Except Fault α := do
  let (found, alone) := Scan.document text.toList
  let a ← read found
  if alone then .ok a else .error .invalid

end Reader

/-- The variants of an enumeration under their names. -/
def variantsOf (κ : Type) [DecidableEq κ] [Enumeration κ] (name : κ → String) : List (String × κ) :=
  (every κ).map fun k => (name k, k)

end ClassAtlas
