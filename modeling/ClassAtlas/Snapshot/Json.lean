import ClassAtlas.Element.Json
import ClassAtlas.Snapshot.Basic

/-!
Snapshots as JSON. A class declaration is written with all its fields, also empty ones; when it is read,
all but its id may be left out.
-/

namespace ClassAtlas

namespace RelationDeclaration

def toJson (r : RelationDeclaration) : Json :=
  .object [("relation", .string r.relation.name), ("target", .string r.target)]

inductive Field
  | relation
  | target
deriving DecidableEq

def shape : Shape Field where
  fields := [.relation, .target]
  key
    | .relation => "relation"
    | .target => "target"
  Value
    | .relation => Relation
    | .target => String
  read
    | .relation => Reader.variant (variantsOf Relation Relation.name)
    | .target => Reader.string
  absent _ := none

def read : Reader RelationDeclaration := fun d => do
  let draft ← shape.draft d
  return ⟨← draft.take .relation, ← draft.take .target⟩

end RelationDeclaration

namespace ClassDeclaration

def toJson (d : ClassDeclaration) : Json :=
  .object [
    ("id", .string d.id),
    ("name", .string d.name),
    ("kind", .string d.kind.name),
    ("visibility", .string d.visibility.name),
    ("modifiers", d.modifiers.toJson),
    ("annotations", .ofList AnnotationRef.toJson d.annotations),
    ("type_parameters", .ofList TypeRef.toJson d.typeParameters),
    ("super_class", .ofOption .string d.superClass),
    ("interfaces", .ofList .string d.interfaces),
    ("members", .ofList Element.toJson d.members),
    ("relations", .ofList RelationDeclaration.toJson d.relations)]

inductive Field
  | id
  | name
  | kind
  | visibility
  | modifiers
  | annotations
  | typeParameters
  | superClass
  | interfaces
  | members
  | relations
deriving DecidableEq

def shape : Shape Field where
  fields := [.id, .name, .kind, .visibility, .modifiers, .annotations, .typeParameters, .superClass,
    .interfaces, .members, .relations]
  key
    | .id => "id"
    | .name => "name"
    | .kind => "kind"
    | .visibility => "visibility"
    | .modifiers => "modifiers"
    | .annotations => "annotations"
    | .typeParameters => "type_parameters"
    | .superClass => "super_class"
    | .interfaces => "interfaces"
    | .members => "members"
    | .relations => "relations"
  Value
    | .id => String
    | .name => String
    | .kind => ElementKind
    | .visibility => Visibility
    | .modifiers => ModifierSet
    | .annotations => List AnnotationRef
    | .typeParameters => List TypeRef
    | .superClass => Option String
    | .interfaces => List String
    | .members => List Element
    | .relations => List RelationDeclaration
  read
    | .id => Reader.string
    | .name => Reader.string
    | .kind => Reader.variant (variantsOf ElementKind ElementKind.name)
    | .visibility => Reader.variant (variantsOf Visibility Visibility.name)
    | .modifiers => fun d =>
      (Reader.list (Reader.variant (variantsOf Modifier Modifier.name)) d).map ModifierSet.ofList
    | .annotations => Reader.list AnnotationRef.read
    | .typeParameters => Reader.list TypeRef.read
    | .superClass => Reader.optional Reader.string
    | .interfaces => Reader.list Reader.string
    | .members => Reader.list Element.read
    | .relations => Reader.list RelationDeclaration.read
  absent
    | .id => none
    | .name => some ""
    | .kind => some .classType
    | .visibility => some .publicAccess
    | .modifiers => some .empty
    | .annotations => some []
    | .typeParameters => some []
    | .superClass => some none
    | .interfaces => some []
    | .members => some []
    | .relations => some []

def read : Reader ClassDeclaration := fun d => do
  let draft ← shape.draft d
  return {
    id := ← draft.take .id
    name := ← draft.take .name
    kind := ← draft.take .kind
    visibility := ← draft.take .visibility
    modifiers := ← draft.take .modifiers
    annotations := ← draft.take .annotations
    typeParameters := ← draft.take .typeParameters
    superClass := ← draft.take .superClass
    interfaces := ← draft.take .interfaces
    members := ← draft.take .members
    relations := ← draft.take .relations }

end ClassDeclaration

namespace Snapshot

def toJson (s : Snapshot) : Json :=
  .object [("classes", .ofList ClassDeclaration.toJson s.classes)]

inductive Field
  | classes
deriving DecidableEq

def shape : Shape Field where
  fields := [.classes]
  key _ := "classes"
  Value _ := List ClassDeclaration
  read _ := Reader.list ClassDeclaration.read
  absent _ := some []

def read : Reader Snapshot := fun d => do
  return ⟨← (← shape.draft d).take .classes⟩

def parse (text : String) : Except Fault Snapshot := read.parse text

end Snapshot

end ClassAtlas
