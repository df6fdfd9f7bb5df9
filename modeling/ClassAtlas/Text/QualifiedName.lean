/-!
Qualified names: segments separated by dots. The simple name is the last segment; the UML form writes
a double colon for each dot, and its namespace ends with the last double colon.
-/

namespace ClassAtlas

namespace QualifiedName

/-- The part after the last dot, or the whole name where there is none. -/
def simple (id : List Char) : List Char := (id.reverse.takeWhile (· ≠ '.')).reverse

def uml (id : List Char) : List Char := id.flatMap fun c => if c = '.' then [':', ':'] else [c]

/-- The text up to and including the last double colon. Colons may overlap: of three, the last two
count. -/
def throughLastColons : List Char → Option (List Char)
  | [] => none
  | c :: rest =>
    match throughLastColons rest with
    | some front => some (c :: front)
    | none => if c = ':' && rest.head? = some ':' then some [':', ':'] else none

end QualifiedName

def simpleName (id : String) : String := String.ofList (QualifiedName.simple id.toList)

def umlName (id : String) : String := String.ofList (QualifiedName.uml id.toList)

/-- UML namespace with its trailing double colon, if the name has one. -/
def umlNamespace (id : String) : Option String :=
  (QualifiedName.throughLastColons (QualifiedName.uml id.toList)).map String.ofList

end ClassAtlas
