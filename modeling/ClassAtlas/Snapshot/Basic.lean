import ClassAtlas.Element.Basic
import ClassAtlas.Relation
import ClassAtlas.Text.QualifiedName

/-!
Snapshots: the description of a type system by whoever extracted it. A snapshot declares classes, and
its declarations refer to other classes by id; a class that is referred to needs no declaration.
-/

namespace ClassAtlas

/-- An outbound relation of the class that declares it. -/
structure RelationDeclaration where
  relation : Relation
  target : String
deriving DecidableEq

structure ClassDeclaration where
  id : String
  /-- Simple name; empty where it follows from the id. -/
  name : String := ""
  kind : ElementKind := .classType
  visibility : Visibility := .publicAccess
  modifiers : ModifierSet := .empty
  annotations : List AnnotationRef := []
  typeParameters : List TypeRef := []
  superClass : Option String := none
  interfaces : List String := []
  members : List Element := []
  relations : List RelationDeclaration := []

namespace ClassDeclaration

def simpleName (d : ClassDeclaration) : String :=
  if d.name.isEmpty then ClassAtlas.simpleName d.id else d.name

/-- A declaration is an interface by its kind or by its modifiers. -/
def isInterface (d : ClassDeclaration) : Bool :=
  d.kind = .interface || d.modifiers.contains .interface

/-- The class as an element; every interface gets the modifier. -/
def toElement (d : ClassDeclaration) : Element where
  attributes :=
    { id := d.id, name := d.simpleName, kind := d.kind, visibility := d.visibility,
      modifiers := if d.isInterface then d.modifiers.insert .interface else d.modifiers }
  annotations := d.annotations

/-- A member with its id, which is the class and the name where none is given. -/
def memberElement (d : ClassDeclaration) (member : Element) : Element :=
  if member.id.isEmpty then
    { member with attributes := { member.attributes with id := d.id ++ "." ++ member.name } }
  else member

/-- The references of a declaration in order: super class, interfaces, relations. -/
def references (d : ClassDeclaration) : List RelationDeclaration :=
  d.superClass.toList.map (⟨.superClass, ·⟩) ++ d.interfaces.map (⟨.superInterface, ·⟩) ++ d.relations

def withName (d : ClassDeclaration) (name : String) : ClassDeclaration := { d with name := name }

def withModifiers (d : ClassDeclaration) (ms : List Modifier) : ClassDeclaration :=
  { d with modifiers := d.modifiers.insertAll ms }

def withSuperClass (d : ClassDeclaration) (id : String) : ClassDeclaration :=
  { d with superClass := some id }

def withInterface (d : ClassDeclaration) (id : String) : ClassDeclaration :=
  { d with interfaces := d.interfaces ++ [id] }

def withMember (d : ClassDeclaration) (member : Element) : ClassDeclaration :=
  { d with members := d.members ++ [member] }

def withRelation (d : ClassDeclaration) (relation : Relation) (target : String) : ClassDeclaration :=
  { d with relations := d.relations ++ [⟨relation, target⟩] }

end ClassDeclaration

structure Snapshot where
  classes : List ClassDeclaration := []

end ClassAtlas
