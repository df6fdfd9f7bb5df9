import ClassAtlas.Json.Reader

/-!
Records: objects whose keys name fields. A record's shape lists its fields; reading an object goes
through its members in order, refuses a field that comes twice, and takes the default of a field that
does not come at all. A record may also be an array of its fields in their order.
-/

namespace ClassAtlas

/-- The fields `F` of a record, in the order of declaration. -/
structure Shape (F : Type) where
  fields : List F
  key : F → String
  Value : F → Type
  read : (f : F) → Reader (Value f)
  /-- The value of a field that is left out, unless it must be given. -/
  absent : (f : F) → Option (Value f)

/-- The fields of a record read so far. -/
def Draft {F : Type} (shape : Shape F) : Type := (f : F) → Option (shape.Value f)

namespace Draft

variable {F : Type} {shape : Shape F}

def empty : Draft shape := fun _ => none

def put [DecidableEq F] (d : Draft shape) (f : F) (value : shape.Value f) : Draft shape :=
  fun g => if h : g = f then some (h ▸ value) else d g

/-- The value of a field, or its default. -/
def take (d : Draft shape) (f : F) : Except Fault (shape.Value f) :=
  match d f with
  | some value => .ok value
  | none =>
    match shape.absent f with
    | some value => .ok value
    | none => .error (.missing (shape.key f))

end Draft

namespace Shape

variable {F : Type} [DecidableEq F] (shape : Shape F)

def field? (key : String) : Option F := shape.fields.find? fun f => shape.key f = key

/-- Reads the fields among the members and keeps the other members, which must pass the test `passes`. -/
def gather (passes : Document → Bool) :
    List (Option String × Document) → Draft shape →
      Except Fault (Draft shape × List (Option String × Document))
  | [], draft => .ok (draft, [])
  | (none, _) :: _, _ => .error .invalid
  | (some key, value) :: members, draft =>
    match shape.field? key with
    | some f =>
      if (draft f).isSome then .error (.duplicate key)
      else do
        let v ← shape.read f value
        gather passes members (draft.put f v)
    | none =>
      if passes value then do
        let (draft, others) ← gather passes members draft
        return (draft, (some key, value) :: others)
      else .error .invalid

/-- Reads items into fields in order; fields left over must have a default. -/
def fill : List F → List Document → Draft shape → Except Fault (Draft shape)
  | fields, [], draft =>
    if fields.all fun f => (shape.absent f).isSome then .ok draft else .error .invalid
  | [], _ :: _, _ => .error .invalid
  | f :: fields, item :: items, draft => do
    let v ← shape.read f item
    fill fields items (draft.put f v)

/-- The fields among members that were kept for later. -/
def ofKept (members : List (Option String × Document)) : Except Fault (Draft shape) :=
  (shape.gather (fun _ => true) members .empty).map (·.1)

def draft : Reader (Draft shape)
  | .object members complete => do
    let (draft, _) ← shape.gather Document.wellFormed members .empty
    if complete then .ok draft else .error .invalid
  | .array items complete => do
    let draft ← shape.fill shape.fields items .empty
    if complete then .ok draft else .error .invalid
  | _ => .error .invalid

/-- An object whose members besides its own fields are kept for later. -/
def draftKeeping : Reader (Draft shape × List (Option String × Document))
  | .object members complete => do
    let found ← shape.gather Document.sound members .empty
    if complete then .ok found else .error .invalid
  | _ => .error .invalid

end Shape

end ClassAtlas
