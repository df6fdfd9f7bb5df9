import ClassAtlas.Element.Basic
import ClassAtlas.Json.Record
import ClassAtlas.Json.Value

/-!
Elements as JSON. The attributes of an element stand among its own members, and its absent parts are
left out when it is written. When it is read, its own members are taken in passing and the attributes
afterwards, from the members kept until then.
-/

namespace ClassAtlas

def ModifierSet.toJson (s : ModifierSet) : Json := .ofList (fun m => .string m.name) s.toList

namespace TypeRef

mutual

def toJson : TypeRef → Json
  | ⟨name, []⟩ => .object [("name", .string name)]
  | ⟨name, bound :: bounds⟩ =>
    .object [("name", .string name), ("bounds", .array (bound.toJson :: listJson bounds))]

def listJson : List TypeRef → List Json
  | [] => []
  | t :: ts => t.toJson :: listJson ts

end

inductive Field
  | name
  | bounds
deriving DecidableEq

def shape (bound : Reader TypeRef) : Shape Field where
  fields := [.name, .bounds]
  key
    | .name => "name"
    | .bounds => "bounds"
  Value
    | .name => String
    | .bounds => List TypeRef
  read
    | .name => Reader.string
    | .bounds => Reader.list bound
  absent
    | .name => none
    | .bounds => some []

def readWith (bound : Reader TypeRef) : Reader TypeRef := fun d => do
  let draft ← (shape bound).draft d
  return ⟨← draft.take .name, ← draft.take .bounds⟩

/-- Reads bounds within bounds down to `depth` levels. -/
def readAt : Nat → Reader TypeRef
  | 0 => fun _ => .error .invalid
  | depth + 1 => readWith (readAt depth)

/-- No document nests more type references than the limit allows. -/
def read : Reader TypeRef := readAt nestingLimit

end TypeRef

namespace AnnotationRef

def toJson (a : AnnotationRef) : Json := .object [("id", .string a.id), ("name", .string a.name)]

inductive Field
  | id
  | name
deriving DecidableEq

def shape : Shape Field where
  fields := [.id, .name]
  key
    | .id => "id"
    | .name => "name"
  Value _ := String
  read _ := Reader.string
  absent
    | .id => some ""
    | .name => none

def read : Reader AnnotationRef := fun d => do
  let draft ← shape.draft d
  return ⟨← draft.take .id, ← draft.take .name⟩

end AnnotationRef

namespace Attributes

/-- The members of the attributes; an empty set of modifiers is left out. -/
def members (a : Attributes) : List (String × Json) :=
  [("id", .string a.id), ("name", .string a.name), ("kind", .string a.kind.name),
    ("visibility", .string a.visibility.name)] ++
  Json.listMember? "modifiers" (fun m => .string m.name) a.modifiers.toList

inductive Field
  | id
  | name
  | kind
  | visibility
  | modifiers
deriving DecidableEq

/-- The shape of attributes, given how variants are read. -/
def shape (variant : {α : Type} → List (String × α) → Reader α) : Shape Field where
  fields := [.id, .name, .kind, .visibility, .modifiers]
  key
    | .id => "id"
    | .name => "name"
    | .kind => "kind"
    | .visibility => "visibility"
    | .modifiers => "modifiers"
  Value
    | .id => String
    | .name => String
    | .kind => ElementKind
    | .visibility => Visibility
    | .modifiers => ModifierSet
  read
    | .id => Reader.string
    | .name => Reader.string
    | .kind => variant (variantsOf ElementKind ElementKind.name)
    | .visibility => variant (variantsOf Visibility Visibility.name)
    | .modifiers => fun d =>
      (Reader.list (variant (variantsOf Modifier Modifier.name)) d).map ModifierSet.ofList
  absent
    | .id => some ""
    | .name => none
    | .kind => none
    | .visibility => some .publicAccess
    | .modifiers => some .empty

def ofDraft {variant : {α : Type} → List (String × α) → Reader α} (draft : Draft (shape variant)) :
    Except Fault Attributes := do
  return { id := ← draft.take .id, name := ← draft.take .name, kind := ← draft.take .kind,
           visibility := ← draft.take .visibility, modifiers := ← draft.take .modifiers }

/-- Attributes that stand alone. -/
def read : Reader Attributes := fun d => do ofDraft (← (shape Reader.variant).draft d)

/-- Attributes among members that were kept for later. -/
def ofKept (members : List (Option String × Document)) : Except Fault Attributes := do
  ofDraft (← (shape Reader.keptVariant).ofKept members)

end Attributes

namespace Details

inductive Field
  | parameters
  | throwables
deriving DecidableEq

def shape {ε : Type} (element : Reader ε) : Shape Field where
  fields := [.parameters, .throwables]
  key
    | .parameters => "parameters"
    | .throwables => "throwables"
  Value _ := List ε
  read _ := Reader.list element
  absent _ := some []

def readOperation {ε : Type} (element : Reader ε) : Reader (Details ε) := fun d => do
  let draft ← (shape element).draft d
  return .operation (← draft.take .parameters) (← draft.take .throwables)

/-- The two forms of details; the value tells whether the form has content. -/
def forms : List (String × Bool) := [("plain", false), ("operation", true)]

def read {ε : Type} (element : Reader ε) : Reader (Details ε)
  | .string (some name) => do
    if ← Reader.pick forms name then .error .invalid else .ok .plain
  | .object ((some name, content) :: more) complete => do
    let details ←
      if ← Reader.pick forms name then readOperation element content
      else match content with
        | .null => .ok .plain
        | _ => .error .invalid
    if more.isEmpty && complete then .ok details else .error .invalid
  | _ => .error .invalid

end Details

namespace Element

mutual

def toJson : Element → Json
  | ⟨attributes, annotations, declaredType, suffix, details⟩ =>
    .object (attributes.members ++
      Json.listMember? "annotations" AnnotationRef.toJson annotations ++
      Json.member? "type" TypeRef.toJson declaredType ++
      Json.member? "declaration_suffix" .string suffix ++
      [("details", detailsJson details)])

def detailsJson : Details Element → Json
  | .plain => .string "plain"
  | .operation parameters throwables =>
    .object [("operation", .object [("parameters", .array (listJson parameters)),
      ("throwables", .array (listJson throwables))])]

def listJson : List Element → List Json
  | [] => []
  | e :: es => e.toJson :: listJson es

end

inductive Field
  | annotations
  | declaredType
  | suffix
  | details
deriving DecidableEq

def shape (nested : Reader Element) : Shape Field where
  fields := [.annotations, .declaredType, .suffix, .details]
  key
    | .annotations => "annotations"
    | .declaredType => "type"
    | .suffix => "declaration_suffix"
    | .details => "details"
  Value
    | .annotations => List AnnotationRef
    | .declaredType => Option TypeRef
    | .suffix => Option String
    | .details => Details Element
  read
    | .annotations => Reader.list AnnotationRef.read
    | .declaredType => Reader.optional TypeRef.read
    | .suffix => Reader.optional Reader.string
    | .details => Details.read nested
  absent
    | .annotations => some []
    | .declaredType => some none
    | .suffix => some none
    | .details => some .plain

def readWith (nested : Reader Element) : Reader Element := fun d => do
  let (draft, others) ← (shape nested).draftKeeping d
  let annotations ← draft.take .annotations
  let declaredType ← draft.take .declaredType
  let suffix ← draft.take .suffix
  let details ← draft.take .details
  return ⟨← Attributes.ofKept others, annotations, declaredType, suffix, details⟩

/-- Reads parameters within parameters down to `depth` levels. -/
def readAt : Nat → Reader Element
  | 0 => fun _ => .error .invalid
  | depth + 1 => readWith (readAt depth)

/-- No document nests more elements than the limit allows. -/
def read : Reader Element := readAt nestingLimit

end Element

end ClassAtlas
