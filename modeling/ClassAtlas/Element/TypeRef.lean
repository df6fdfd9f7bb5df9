import ClassAtlas.Text.Qualifier

/-!
References to types: a name with the bounds it is declared with, as in `T extends A & B`.
-/

namespace ClassAtlas

structure TypeRef where
  name : String
  bounds : List TypeRef

namespace TypeRef

def shortName (t : TypeRef) : String := stripQualifiers t.name

/-- The name, and after `extends` the names of its direct bounds. -/
def declaration (t : TypeRef) : String :=
  if t.bounds.isEmpty then t.name
  else t.name ++ " extends " ++ " & ".intercalate (t.bounds.map (·.name))

end TypeRef

/-- The type parameters in angle brackets; nothing where there are none. -/
def declareTypeParameters (parameters : List TypeRef) : String :=
  if parameters.isEmpty then ""
  else "<" ++ ", ".intercalate (parameters.map (·.declaration)) ++ ">"

end ClassAtlas
