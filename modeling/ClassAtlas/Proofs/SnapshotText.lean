import ClassAtlas.Proofs.ElementText
import ClassAtlas.Snapshot.Json

/-! A snapshot comes back from its text (`parse_toJson`), whatever its declarations hold. -/

namespace ClassAtlas

namespace RelationDeclaration

variable (r : RelationDeclaration)

def writing : Field → Json
  | .relation => .string r.relation.name
  | .target => .string r.target

def values : (f : Field) → shape.Value f
  | .relation => r.relation
  | .target => r.target

theorem writes : Writes shape [.relation, .target] r.writing r.values where
  nodup := by decide
  key f _ := by cases f <;> rfl
  read f _ := by
    cases f with
    | relation => exact Reader.pick_variantsOf (by decide) r.relation
    | target => rfl
  absent f hf := by cases f <;> simp at hf

theorem read_toJson : read r.toJson.document = .ok r := by
  obtain ⟨d, hd, htake⟩ := r.writes.draft
  have hdraft : shape.draft r.toJson.document = .ok d := hd
  unfold read
  simp only [hdraft, htake, bind, Except.bind]
  rfl

end RelationDeclaration

namespace ClassDeclaration

variable (c : ClassDeclaration)

def writing : Field → Json
  | .id => .string c.id
  | .name => .string c.name
  | .kind => .string c.kind.name
  | .visibility => .string c.visibility.name
  | .modifiers => c.modifiers.toJson
  | .annotations => .ofList AnnotationRef.toJson c.annotations
  | .typeParameters => .ofList TypeRef.toJson c.typeParameters
  | .superClass => .ofOption .string c.superClass
  | .interfaces => .ofList .string c.interfaces
  | .members => .ofList Element.toJson c.members
  | .relations => .ofList RelationDeclaration.toJson c.relations

def values : (f : Field) → shape.Value f
  | .id => c.id
  | .name => c.name
  | .kind => c.kind
  | .visibility => c.visibility
  | .modifiers => c.modifiers
  | .annotations => c.annotations
  | .typeParameters => c.typeParameters
  | .superClass => c.superClass
  | .interfaces => c.interfaces
  | .members => c.members
  | .relations => c.relations

theorem toJson_eq : c.toJson = .object (shape.entries c.writing shape.fields) := rfl

theorem mem_fields (f : Field) : f ∈ shape.fields := by cases f <;> decide

/-- What a field is written as nests less deep than the declaration. -/
theorem depth_writing (f : Field) : (c.writing f).depth < c.toJson.depth := by
  rw [toJson_eq]
  exact Shape.depth_lt_of_mem (mem_fields f)

theorem depth_typeParameter {t : TypeRef} (ht : t ∈ c.typeParameters) : t.toJson.depth < c.toJson.depth :=
  Nat.lt_trans (Json.depth_lt_of_mem_items (List.mem_map_of_mem ht)) (c.depth_writing .typeParameters)

theorem depth_member {e : Element} (he : e ∈ c.members) : e.toJson.depth < c.toJson.depth :=
  Nat.lt_trans (Json.depth_lt_of_mem_items (List.mem_map_of_mem he)) (c.depth_writing .members)

theorem writes (hdepth : c.toJson.depth ≤ nestingLimit) : Writes shape shape.fields c.writing c.values where
  nodup := by decide
  key f _ := by cases f <;> rfl
  read f _ := by
    cases f with
    | id | name => rfl
    | kind => exact read_kind reads_variant c.kind
    | visibility => exact read_visibility reads_variant c.visibility
    | modifiers => exact read_modifiers reads_variant c.modifiers
    | annotations => exact Reader.list_document fun a _ => a.read_toJson
    | typeParameters =>
      exact Reader.list_document fun t ht =>
        TypeRef.readAt_toJson (Nat.le_trans (Nat.le_of_lt (c.depth_typeParameter ht)) hdepth)
    | superClass => exact Reader.optional_document fun _ _ => ⟨rfl, Document.noConfusion⟩
    | interfaces => exact Reader.list_document fun _ _ => rfl
    | members =>
      exact Reader.list_document fun e he =>
        Element.readAt_toJson (Nat.le_refl _) (Nat.le_trans (Nat.le_of_lt (c.depth_member he)) hdepth)
    | relations => exact Reader.list_document fun r _ => r.read_toJson
  absent f hf := absurd (mem_fields f) hf

theorem read_toJson (hdepth : c.toJson.depth ≤ nestingLimit) : read c.toJson.document = .ok c := by
  obtain ⟨d, hd, htake⟩ := (c.writes hdepth).draft
  rw [← toJson_eq] at hd
  unfold read
  simp only [hd, htake, bind, Except.bind]
  rfl

end ClassDeclaration

namespace Snapshot

variable {s : Snapshot}

theorem depth_class {c : ClassDeclaration} (hc : c ∈ s.classes) : c.toJson.depth < s.toJson.depth :=
  Nat.lt_trans (Json.depth_lt_of_mem_items (List.mem_map_of_mem hc))
    (Json.depth_lt_of_mem_members (List.mem_singleton_self _))

theorem writes (hdepth : s.toJson.depth ≤ nestingLimit) :
    Writes shape [.classes] (fun _ => .ofList ClassDeclaration.toJson s.classes) (fun _ => s.classes) where
  nodup := by decide
  key f _ := by cases f; rfl
  read _ _ := Reader.list_document fun c hc => c.read_toJson (Nat.le_trans (Nat.le_of_lt (depth_class hc)) hdepth)
  absent f hf := by cases f; simp at hf

theorem read_toJson (hdepth : s.toJson.depth ≤ nestingLimit) : read s.toJson.document = .ok s := by
  obtain ⟨d, hd, htake⟩ := (writes hdepth).draft
  have hdraft : shape.draft s.toJson.document = .ok d := hd
  unfold read
  simp only [hdraft, htake, bind, Except.bind]
  rfl

theorem parse_of_document {text : String} (hdepth : s.toJson.depth ≤ nestingLimit)
    (htext : Scan.document text.toList = (s.toJson.document, true)) : parse text = .ok s := by
  rw [parse, Reader.parse, htext]
  simp only [read_toJson hdepth, bind, Except.bind, if_true]

/-- Both texts of a snapshot that nests within the limit are read as that snapshot. -/
theorem parse_toJson (hdepth : s.toJson.depth ≤ nestingLimit) :
    parse s.toJson.compact = .ok s ∧ parse s.toJson.pretty = .ok s :=
  ⟨parse_of_document hdepth (Json.document_compact hdepth), parse_of_document hdepth (Json.document_pretty hdepth)⟩

/-- A type bounded by a type bounded by a type, and so on. -/
def bounded : Nat → TypeRef
  | 0 => ⟨"T", []⟩
  | n + 1 => ⟨"T", [bounded n]⟩

/-- An operation that takes an operation, in a class whose type parameter nests as deep as the limit allows. -/
def layered : Snapshot where
  classes :=
    [{ id := "a.\"B\"\\\x01é😀", kind := .interface, modifiers := .ofList [.final, .static],
       annotations := [⟨"", "Marker"⟩], typeParameters := [bounded 61], superClass := some "a.C", interfaces := [""],
       members := [{
         attributes := { id := "", name := "run\n", kind := .methods, modifiers := .ofList [.abstract] },
         annotations := [⟨"a.N", "N"⟩],
         declaredType := some (bounded 1),
         details := .operation
           [{ attributes := { id := "p", name := "task", kind := .parameters, visibility := .privateAccess },
              suffix := some " = null",
              details := .operation [] [{ attributes := { id := "e", name := "E", kind := .throws } }] }]
           [] }],
       relations := [⟨.throwsDependency, "a.E"⟩] },
     { id := "" }]

theorem parse_toJson_layered : layered.toJson.depth = nestingLimit ∧
    parse layered.toJson.compact = .ok layered ∧ parse layered.toJson.pretty = .ok layered := by
  have hdepth : layered.toJson.depth = nestingLimit := by decide +kernel
  exact ⟨hdepth, parse_toJson (Nat.le_of_eq hdepth)⟩

end Snapshot

end ClassAtlas
