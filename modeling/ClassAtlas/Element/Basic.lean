import ClassAtlas.Element.Kind
import ClassAtlas.Element.TypeRef

/-!
Language elements: the named constructs of a type system. Classes, fields, operations and parameters
share one shape; an operation carries its parameters and throwables, which are elements again.
-/

namespace ClassAtlas

/-- What every named construct has, and all that an ordering may look at. -/
structure Attributes where
  id : String
  name : String
  kind : ElementKind
  visibility : Visibility := .publicAccess
  modifiers : ModifierSet := .empty
deriving DecidableEq

namespace Attributes

def has (a : Attributes) (m : Modifier) : Bool := a.modifiers.contains m

def isAbstract (a : Attributes) : Bool := a.has .abstract

def isStatic (a : Attributes) : Bool := a.has .static

def withModifiers (a : Attributes) (ms : List Modifier) : Attributes :=
  { a with modifiers := a.modifiers.insertAll ms }

/-- Names of the modifiers that are written as stereotypes, in the order of the registry. -/
def stereotypes (a : Attributes) : List String :=
  (a.modifiers.toList.filter (·.isStereotype)).map (·.displayName)

end Attributes

/-- An annotation type applied to an element. -/
structure AnnotationRef where
  id : String
  name : String
deriving DecidableEq

/-- What an element has beyond its attributes: an operation lists parameters and throwables. -/
inductive Details (ε : Type)
  | plain
  | operation (parameters throwables : List ε)

structure Element where
  attributes : Attributes
  annotations : List AnnotationRef := []
  declaredType : Option TypeRef := none
  /-- Text after the type, such as the value of a constant. -/
  suffix : Option String := none
  details : Details Element := .plain

namespace Element

def id (e : Element) : String := e.attributes.id

def name (e : Element) : String := e.attributes.name

def kind (e : Element) : ElementKind := e.attributes.kind

/-- Parameters and throwables, if the element is an operation. -/
def operation? (e : Element) : Option (List Element × List Element) :=
  match e.details with
  | .plain => none
  | .operation parameters throwables => some (parameters, throwables)

def shortType (e : Element) : Option String := e.declaredType.map (·.shortName)

/-- A parameter as it stands between the brackets: `name : Type`. -/
def asParameter (e : Element) : String :=
  match e.shortType with
  | some type => e.name ++ " : " ++ type
  | none => e.name

/-- The parameters of an operation, separated by commas. -/
def parameterText (e : Element) : Option String :=
  e.operation?.map fun (parameters, _) => ", ".intercalate (parameters.map asParameter)

end Element

end ClassAtlas
