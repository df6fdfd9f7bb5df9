import ClassAtlas.Element.Json
import ClassAtlas.Proofs.Records

/-! Elements come back from their documents (`Element.readAt_toJson`), and with them all that elements are made of. Each
record is read as it was written; type references and elements, which nest, by induction on how deep their JSON does. -/

namespace ClassAtlas

/-- Readers of variants that look up what stands as a text. -/
def ReadsNames (variant : {α : Type} → List (String × α) → Reader α) : Prop :=
  ∀ {α : Type} (variants : List (String × α)) (name : String),
    variant variants (.string (some name)) = Reader.pick variants name

theorem reads_variant : ReadsNames Reader.variant := fun _ _ => rfl

theorem reads_keptVariant : ReadsNames Reader.keptVariant := fun _ _ => rfl

section Variants

variable {variant : {α : Type} → List (String × α) → Reader α} (hv : ReadsNames variant)

include hv

theorem read_kind (k : ElementKind) :
    variant (variantsOf ElementKind ElementKind.name) (Json.string k.name).document = .ok k :=
  (hv _ _).trans (Reader.pick_variantsOf (by decide) k)

theorem read_visibility (v : Visibility) :
    variant (variantsOf Visibility Visibility.name) (Json.string v.name).document = .ok v :=
  (hv _ _).trans (Reader.pick_variantsOf (by decide) v)

theorem read_modifier (m : Modifier) :
    variant (variantsOf Modifier Modifier.name) (Json.string m.name).document = .ok m :=
  (hv _ _).trans (Reader.pick_variantsOf (by decide) m)

theorem read_modifiers (s : ModifierSet) :
    (Reader.list (variant (variantsOf Modifier Modifier.name)) s.toJson.document).map ModifierSet.ofList = .ok s := by
  rw [ModifierSet.toJson, Reader.list_document fun m _ => read_modifier hv m]
  exact congrArg Except.ok s.ofList_toList

end Variants

namespace AnnotationRef

variable (a : AnnotationRef)

def writing : Field → Json
  | .id => .string a.id
  | .name => .string a.name

def values : (f : Field) → shape.Value f
  | .id => a.id
  | .name => a.name

theorem writes : Writes shape [.id, .name] a.writing a.values where
  nodup := by decide
  key := by decide
  read f _ := by cases f <;> rfl
  absent f hf := by cases f <;> simp at hf

theorem read_toJson : read a.toJson.document = .ok a := by
  obtain ⟨d, hd, htake⟩ := a.writes.draft
  have hdraft : shape.draft a.toJson.document = .ok d := hd
  unfold read
  simp only [hdraft, htake, bind, Except.bind]
  rfl

end AnnotationRef

namespace TypeRef

theorem listJson_eq_map (ts : List TypeRef) : listJson ts = ts.map toJson := by
  induction ts with
  | nil => rfl
  | cons t ts ih => rw [listJson, ih, List.map_cons]

variable (t : TypeRef)

def writing : Field → Json
  | .name => .string t.name
  | .bounds => .ofList toJson t.bounds

def values {bound : Reader TypeRef} : (f : Field) → (shape bound).Value f
  | .name => t.name
  | .bounds => t.bounds

/-- Bounds are left out if there are none. -/
def written : List Field := [.name] ++ if t.bounds.isEmpty then [] else [.bounds]

theorem toJson_eq (bound : Reader TypeRef) : t.toJson = .object ((shape bound).entries t.writing t.written) := by
  match t with
  | ⟨name, []⟩ => rfl
  | ⟨name, b :: bounds⟩ =>
    rw [toJson, listJson_eq_map]
    rfl

theorem writes {bound : Reader TypeRef} (hbounds : ∀ b ∈ t.bounds, bound b.toJson.document = .ok b) :
    Writes (shape bound) t.written t.writing t.values where
  nodup := by unfold written; split <;> decide
  key f _ := by cases f <;> rfl
  read f _ := by
    cases f with
    | name => rfl
    | bounds => exact Reader.list_document hbounds
  absent f hf := by
    cases f with
    | name => simp [written] at hf
    | bounds =>
      have hnil : t.bounds = [] := by simpa [written] using hf
      exact congrArg some hnil.symm

/-- A bound lies two levels below what it bounds. -/
theorem depth_bound {b : TypeRef} (hb : b ∈ t.bounds) : b.toJson.depth + 2 ≤ t.toJson.depth := by
  have hwritten : Field.bounds ∈ t.written := by simpa [written] using List.ne_nil_of_mem hb
  have hlist : b.toJson.depth < (t.writing .bounds).depth := Json.depth_lt_of_mem_items (List.mem_map_of_mem hb)
  have hobject : (t.writing .bounds).depth < (Json.object ((shape read).entries t.writing t.written)).depth :=
    Shape.depth_lt_of_mem hwritten
  rw [← toJson_eq] at hobject
  omega

theorem depth_pos : 0 < t.toJson.depth := by
  rw [t.toJson_eq read, Json.depth]
  exact Nat.succ_pos _

theorem readAt_toJson {depth : Nat} : ∀ {t : TypeRef}, t.toJson.depth ≤ depth → readAt depth t.toJson.document = .ok t := by
  induction depth with
  | zero =>
    intro t hdepth
    exact absurd t.depth_pos (Nat.not_lt.2 hdepth)
  | succ depth ih =>
    intro t hdepth
    have hbounds : ∀ b ∈ t.bounds, readAt depth b.toJson.document = .ok b := by
      intro b hb
      have := t.depth_bound hb
      exact ih (by omega)
    obtain ⟨d, hd, htake⟩ := (t.writes hbounds).draft
    rw [← toJson_eq] at hd
    unfold readAt readWith
    simp only [hd, htake, bind, Except.bind]
    cases t
    rfl

end TypeRef

namespace Attributes

variable (a : Attributes)

def writing : Field → Json
  | .id => .string a.id
  | .name => .string a.name
  | .kind => .string a.kind.name
  | .visibility => .string a.visibility.name
  | .modifiers => a.modifiers.toJson

def values {variant : {α : Type} → List (String × α) → Reader α} : (f : Field) → (shape variant).Value f
  | .id => a.id
  | .name => a.name
  | .kind => a.kind
  | .visibility => a.visibility
  | .modifiers => a.modifiers

/-- Modifiers are left out if there are none. -/
def written : List Field :=
  [.id, .name, .kind, .visibility] ++ if a.modifiers.toList.isEmpty then [] else [.modifiers]

theorem members_eq (variant : {α : Type} → List (String × α) → Reader α) :
    a.members = (shape variant).entries a.writing a.written := by
  unfold members written Json.listMember?
  split <;> rfl

theorem writes {variant : {α : Type} → List (String × α) → Reader α} (hv : ReadsNames variant) :
    Writes (shape variant) a.written a.writing a.values where
  nodup := by unfold written; split <;> decide
  key f _ := by cases f <;> rfl
  read f _ := by
    cases f with
    | id | name => rfl
    | kind => exact read_kind hv a.kind
    | visibility => exact read_visibility hv a.visibility
    | modifiers => exact read_modifiers hv a.modifiers
  absent f hf := by
    cases f with
    | modifiers =>
      have hempty : a.modifiers.toList = [] := by simpa [written] using hf
      have hset := a.modifiers.ofList_toList
      rw [hempty] at hset
      exact congrArg some hset
    | _ => simp [written] at hf

theorem read_members : ofKept (Json.memberDocuments a.members) = .ok a := by
  obtain ⟨d, hd, htake⟩ := (a.writes reads_keptVariant).ofKept
  rw [← members_eq] at hd
  unfold ofKept ofDraft
  simp only [hd, htake, bind, Except.bind]
  rfl

/-- Attributes can be kept for later. -/
theorem sound_members : ∀ m ∈ a.members, m.2.document.sound = true := by
  intro m hm
  rw [members_eq a Reader.variant] at hm
  obtain ⟨f, -, rfl⟩ := List.mem_map.1 hm
  cases f with
  | modifiers =>
    have hnames : ∀ ms : List Modifier, Document.soundItems
        ((ms.map fun m => Json.string m.name).map Json.document) = true := by
      intro ms
      induction ms with
      | nil => rfl
      | cons m ms ih => exact ih
    change (Json.ofList (fun m : Modifier => .string m.name) a.modifiers.toList).document.sound = true
    rw [Json.ofList, Json.document, Json.documents_eq_map, Document.sound, hnames]
    rfl
  | _ => rfl

end Attributes

namespace Element

theorem listJson_eq_map (es : List Element) : listJson es = es.map toJson := by
  induction es with
  | nil => rfl
  | cons e es ih => rw [listJson, ih, List.map_cons]

end Element

namespace Details

def writing (parameters throwables : List Element) : Field → Json
  | .parameters => .ofList Element.toJson parameters
  | .throwables => .ofList Element.toJson throwables

def values {nested : Reader Element} (parameters throwables : List Element) :
    (f : Field) → (shape nested).Value f
  | .parameters => parameters
  | .throwables => throwables

variable {nested : Reader Element} {parameters throwables : List Element}

theorem writes (hp : ∀ e ∈ parameters, nested e.toJson.document = .ok e)
    (ht : ∀ e ∈ throwables, nested e.toJson.document = .ok e) :
    Writes (shape nested) [.parameters, .throwables] (writing parameters throwables)
      (values parameters throwables) where
  nodup := by decide
  key f _ := by cases f <;> rfl
  read f _ := by
    cases f with
    | parameters => exact Reader.list_document hp
    | throwables => exact Reader.list_document ht
  absent f hf := by cases f <;> simp at hf

/-- The elements that details list. -/
def nestedElements : Details Element → List Element
  | .plain => []
  | .operation parameters throwables => parameters ++ throwables

theorem detailsJson_operation (nested : Reader Element) : Element.detailsJson (.operation parameters throwables) =
    .object [("operation", .object ((shape nested).entries (writing parameters throwables) [.parameters, .throwables]))] := by
  rw [Element.detailsJson, Element.listJson_eq_map, Element.listJson_eq_map]
  rfl

theorem read_detailsJson (details : Details Element)
    (h : ∀ e ∈ details.nestedElements, nested e.toJson.document = .ok e) :
    read nested (Element.detailsJson details).document = .ok details := by
  cases details with
  | plain => rfl
  | operation parameters throwables =>
    obtain ⟨d, hd, htake⟩ := (writes (fun e he => h e (List.mem_append_left _ he))
      (fun e he => h e (List.mem_append_right _ he))).draft
    rw [detailsJson_operation nested]
    change (readOperation nested _ >>= _) = _
    unfold readOperation
    simp only [hd, htake, bind, Except.bind]
    rfl

theorem depth_nested (details : Details Element) :
    ∀ e ∈ details.nestedElements, e.toJson.depth < (Element.detailsJson details).depth := by
  intro e he
  cases details with
  | plain => cases he
  | operation parameters throwables =>
    rw [detailsJson_operation Element.read]
    have hfield : ∀ f ∈ [Field.parameters, Field.throwables], (writing parameters throwables f).depth <
        (Json.object ((shape Element.read).entries (writing parameters throwables) [.parameters, .throwables])).depth :=
      fun _ hf => Shape.depth_lt_of_mem hf
    refine Nat.lt_trans ?_ (Json.depth_lt_of_mem_members (List.mem_singleton_self _))
    rcases List.mem_append.1 he with he | he
    · exact Nat.lt_trans (Json.depth_lt_of_mem_items (List.mem_map_of_mem he)) (hfield .parameters (by simp))
    · exact Nat.lt_trans (Json.depth_lt_of_mem_items (List.mem_map_of_mem he)) (hfield .throwables (by simp))

end Details

namespace Element

variable (e : Element)

def writing : Field → Json
  | .annotations => .ofList AnnotationRef.toJson e.annotations
  | .declaredType => .ofOption TypeRef.toJson e.declaredType
  | .suffix => .ofOption .string e.suffix
  | .details => detailsJson e.details

def values {nested : Reader Element} : (f : Field) → (shape nested).Value f
  | .annotations => e.annotations
  | .declaredType => e.declaredType
  | .suffix => e.suffix
  | .details => e.details

/-- Details are always written, the other fields only if there is something to write. -/
def written : List Field :=
  (if e.annotations.isEmpty then [] else [.annotations]) ++ (if e.declaredType.isSome then [.declaredType] else []) ++
    (if e.suffix.isSome then [.suffix] else []) ++ [.details]

theorem toJson_eq (nested : Reader Element) :
    e.toJson = .object (e.attributes.members ++ (shape nested).entries e.writing e.written) := by
  obtain ⟨attributes, annotations, declaredType, suffix, details⟩ := e
  rw [toJson]
  simp only [List.append_assoc]
  cases annotations <;> cases declaredType <;> cases suffix <;> rfl

theorem details_mem_written : Field.details ∈ e.written := List.mem_append_right _ (List.mem_singleton_self _)

/-- What a field is written as nests less deep than the element. -/
theorem depth_writing {f : Field} (hf : f ∈ e.written) : (e.writing f).depth < e.toJson.depth := by
  rw [e.toJson_eq read]
  exact Json.depth_lt_of_mem_members (List.mem_append_right _ (List.mem_map_of_mem hf))

theorem depth_declaredType {t : TypeRef} (ht : e.declaredType = some t) : t.toJson.depth < e.toJson.depth := by
  have hwritten : Field.declaredType ∈ e.written := by simp [written, ht]
  have hdepth := e.depth_writing hwritten
  rwa [writing, ht] at hdepth

theorem depth_nested {n : Element} (hn : n ∈ e.details.nestedElements) : n.toJson.depth < e.toJson.depth :=
  Nat.lt_trans (e.details.depth_nested n hn) (e.depth_writing e.details_mem_written)

theorem writes {nested : Reader Element} (htype : ∀ t, e.declaredType = some t → t.toJson.depth ≤ nestingLimit)
    (hnested : ∀ n ∈ e.details.nestedElements, nested n.toJson.document = .ok n) :
    Writes (shape nested) e.written e.writing e.values where
  nodup := by unfold written; split <;> split <;> split <;> decide
  key f _ := by cases f <;> rfl
  read f _ := by
    cases f with
    | annotations => exact Reader.list_document fun a _ => a.read_toJson
    | declaredType =>
      refine Reader.optional_document fun t ht => ⟨TypeRef.readAt_toJson (htype t ht), ?_⟩
      rw [t.toJson_eq TypeRef.read, Json.document]
      exact Document.noConfusion
    | suffix => exact Reader.optional_document fun _ _ => ⟨rfl, Document.noConfusion⟩
    | details => exact e.details.read_detailsJson hnested
  absent f hf := by
    cases f with
    | annotations =>
      have hnil : e.annotations = [] := by simpa [written] using hf
      exact congrArg some hnil.symm
    | declaredType =>
      have hnone : e.declaredType = none := by simpa [written] using hf
      exact congrArg some hnone.symm
    | suffix =>
      have hnone : e.suffix = none := by simpa [written] using hf
      exact congrArg some hnone.symm
    | details => exact absurd e.details_mem_written hf

/-- No attribute is taken for a field of the element itself. -/
theorem field?_members (nested : Reader Element) : ∀ m ∈ e.attributes.members, (shape nested).field? m.1 = none := by
  intro m hm
  rw [Attributes.members_eq e.attributes Reader.variant] at hm
  obtain ⟨f, -, rfl⟩ := List.mem_map.1 hm
  cases f <;> rfl

theorem readAt_toJson {depth : Nat} (hlimit : depth ≤ nestingLimit) :
    ∀ {e : Element}, e.toJson.depth ≤ depth → readAt depth e.toJson.document = .ok e := by
  induction depth with
  | zero =>
    intro e hdepth
    have := e.depth_writing e.details_mem_written
    omega
  | succ depth ih =>
    intro e hdepth
    have htype : ∀ t, e.declaredType = some t → t.toJson.depth ≤ nestingLimit := by
      intro t ht
      have := e.depth_declaredType ht
      omega
    have hnested : ∀ n ∈ e.details.nestedElements, readAt depth n.toJson.document = .ok n := by
      intro n hn
      have := e.depth_nested hn
      exact ih (by omega) (by omega)
    obtain ⟨d, hd, htake⟩ := (e.writes htype hnested).draftKeeping
      fun m hm => ⟨e.field?_members _ m hm, e.attributes.sound_members m hm⟩
    rw [← toJson_eq] at hd
    unfold readAt readWith
    simp only [hd, htake, Attributes.read_members, bind, Except.bind]
    cases e
    rfl

end Element

end ClassAtlas
