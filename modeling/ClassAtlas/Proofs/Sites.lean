import ClassAtlas.Proofs.Checks

/-! The records that a snapshot is made of, and where they stand in one another. The records of each kind are
presentable (`RecordKind.presentable`), and where a record has others in a field, it is read as before if they are
(`RecordKind.keeps_site`). -/

namespace ClassAtlas

open Reader

/-- The records that a snapshot is made of. -/
inductive RecordKind
  | snapshot
  | classDeclaration
  | relationDeclaration
  | element
  | annotationRef
  | typeRef
  | operation

/-- What a value with records in it holds: one record, a list of them, or the details of an element. -/
inductive Site
  | record (kind : RecordKind)
  | list (kind : RecordKind)
  | details

namespace RecordKind

def Value : RecordKind → Type
  | .snapshot => Snapshot
  | .classDeclaration => ClassDeclaration
  | .relationDeclaration => RelationDeclaration
  | .element => Element
  | .annotationRef => AnnotationRef
  | .typeRef => TypeRef
  | .operation => Details Element

/-- Reads a record, and records within it down to `depth` levels where these are of one kind. -/
def readAt (depth : Nat) : (kind : RecordKind) → Reader kind.Value
  | .snapshot => Snapshot.read
  | .classDeclaration => ClassDeclaration.read
  | .relationDeclaration => RelationDeclaration.read
  | .element => Element.readAt depth
  | .annotationRef => AnnotationRef.read
  | .typeRef => TypeRef.readAt depth
  | .operation => Details.readOperation (Element.readAt depth)

/-- The keys of the fields; an element has those of its attributes too. -/
def keys : RecordKind → List String
  | .snapshot => Snapshot.shape.keys
  | .classDeclaration => ClassDeclaration.shape.keys
  | .relationDeclaration => RelationDeclaration.shape.keys
  | .element => Element.keys
  | .annotationRef => AnnotationRef.shape.keys
  | .typeRef => (TypeRef.shape TypeRef.read).keys
  | .operation => (Details.shape Element.read).keys

/-- The document is the default of a field. -/
def Default : RecordKind → String → Document → Prop
  | .snapshot => Snapshot.shape.Default
  | .classDeclaration => ClassDeclaration.shape.Default
  | .relationDeclaration => RelationDeclaration.shape.Default
  | .element => fun key d => (Element.shape Element.read).Default key d ∨ Attributes.keptShape.Default key d
  | .annotationRef => AnnotationRef.shape.Default
  | .typeRef => (TypeRef.shape TypeRef.read).Default
  | .operation => (Details.shape Element.read).Default

/-- The fields with records in them. -/
def sites : RecordKind → List (String × Site)
  | .snapshot => [("classes", .list .classDeclaration)]
  | .classDeclaration => [("annotations", .list .annotationRef), ("type_parameters", .list .typeRef),
      ("members", .list .element), ("relations", .list .relationDeclaration)]
  | .element => [("annotations", .list .annotationRef), ("type", .record .typeRef), ("details", .details)]
  | .typeRef => [("bounds", .list .typeRef)]
  | .operation => [("parameters", .list .element), ("throwables", .list .element)]
  | .relationDeclaration | .annotationRef => []

end RecordKind

namespace Site

def Value : Site → Type
  | .record kind => kind.Value
  | .list kind => List kind.Value
  | .details => Details Element

def readAt (depth : Nat) : (site : Site) → Reader site.Value
  | .record kind => kind.readAt depth
  | .list kind => Reader.list (kind.readAt depth)
  | .details => Details.read (Element.readAt depth)

end Site

/-- An empty list is one whatever its items would be. -/
theorem Reader.list_nil {α : Type} {read read' : Reader α} {d : Document} (h : list read d = .ok []) :
    list read' d = .ok [] := by
  cases d with
  | array items complete =>
    obtain ⟨as, has, h⟩ := bind_eq_ok_iff.1 h
    cases complete with
    | false => cases h
    | true =>
      cases h
      cases items with
      | nil => rfl
      | cons item items =>
        obtain ⟨a, -, has⟩ := bind_eq_ok_iff.1 has
        obtain ⟨as, -, has⟩ := bind_eq_ok_iff.1 has
        cases has
  | _ => cases h

theorem Details.read_operation {ε : Type} (element : Reader ε) (d : Document) :
    Details.read element (.object [(some "operation", d)] true) = readOperation element d >>= .ok := rfl

/-- The details of an operation are read as before if the operation is. -/
theorem Details.keeps_operation {ε : Type} {element : Reader ε} {value value' : Document}
    (h : (readOperation element).Keeps value value') :
    (Details.read element).Keeps (.object [(some "operation", value)] true)
      (.object [(some "operation", value')] true) := by
  intro details hdetails
  rw [read_operation] at hdetails ⊢
  obtain ⟨operation, hoperation, hsame⟩ := bind_eq_ok_iff.1 hdetails
  exact bind_eq_ok_iff.2 ⟨operation, h _ hoperation, hsame⟩

theorem Details.read_plain {ε : Type} {element element' : Reader ε} {d : Document}
    (h : Details.read element d = .ok .plain) : Details.read element' d = .ok .plain := by
  unfold Details.read at h ⊢
  split at h
  · exact h
  · obtain ⟨operation, hform, h⟩ := bind_eq_ok_iff.1 h
    refine bind_eq_ok_iff.2 ⟨operation, hform, ?_⟩
    cases operation with
    | false => exact h
    | true =>
      obtain ⟨found, hfound, h⟩ := bind_eq_ok_iff.1 h
      obtain ⟨draft, -, hfound⟩ := bind_eq_ok_iff.1 hfound
      obtain ⟨parameters, -, hfound⟩ := bind_eq_ok_iff.1 hfound
      obtain ⟨throwables, -, hfound⟩ := bind_eq_ok_iff.1 hfound
      cases hfound
      split at h
      · cases h
      · cases h
  · cases h

namespace RecordKind

variable {name : String} {d : Document}

theorem default_typeRef (bound : Reader TypeRef) (h : RecordKind.typeRef.Default name d) :
    (TypeRef.shape bound).Default name d := by
  obtain ⟨f, v, known, absent, read⟩ := h
  cases f with
  | name => cases absent
  | bounds =>
    obtain rfl := Option.some.inj absent
    exact ⟨.bounds, [], known, rfl, list_nil read⟩

theorem default_operation (element : Reader Element) (h : RecordKind.operation.Default name d) :
    (Details.shape element).Default name d := by
  obtain ⟨f, v, known, absent, read⟩ := h
  obtain rfl := Option.some.inj absent
  exact ⟨f, [], known, rfl, list_nil read⟩

theorem default_element (nested : Reader Element) (h : (Element.shape Element.read).Default name d) :
    (Element.shape nested).Default name d := by
  obtain ⟨f, v, known, absent, read⟩ := h
  cases f with
  | annotations => exact ⟨.annotations, v, known, absent, read⟩
  | declaredType => exact ⟨.declaredType, v, known, absent, read⟩
  | suffix => exact ⟨.suffix, v, known, absent, read⟩
  | details =>
    obtain rfl := Option.some.inj absent
    exact ⟨.details, .plain, known, rfl, Details.read_plain read⟩

/-- What may be put into a record. -/
def Admits : RecordKind → Document → Prop
  | .element => fun d => d.sound = true
  | .snapshot | .classDeclaration | .relationDeclaration | .annotationRef | .typeRef | .operation =>
    fun d => d.wellFormed = true

theorem presentable (depth : Nat) : ∀ kind : RecordKind,
    Presentable (kind.readAt depth) kind.keys kind.Default kind.Admits
  | .snapshot => Snapshot.readBy.presentable
  | .classDeclaration => ClassDeclaration.readBy.presentable
  | .relationDeclaration => RelationDeclaration.readBy.presentable
  | .annotationRef => AnnotationRef.readBy.presentable
  | .operation => (Details.readBy _).presentable.of_default fun _ _ => default_operation _
  | .typeRef => by
    cases depth with
    | zero => exact .of_error fun _ _ => nofun
    | succ depth => exact (TypeRef.readBy _).presentable.of_default fun _ _ => default_typeRef _
  | .element => by
    cases depth with
    | zero => exact .of_error fun _ _ => nofun
    | succ depth => exact (Element.presentable _).of_default fun _ _ => Or.imp_left (default_element _)

/-- A field of a record is read as before if its value is, in a record of either form. -/
theorem keeps_site {kind : RecordKind} {site : Site} (sited : (name, site) ∈ kind.sites) {value value' : Document}
    (h : ∀ depth, (site.readAt depth).Keeps value value') (hnull : value ≠ .null ∧ value' ≠ .null) (depth : Nat) :
    (∀ ms ns, (kind.readAt depth).Keeps (.object (ms ++ (some name, value) :: ns) true)
      (.object (ms ++ (some name, value') :: ns) true)) ∧
    ∀ items more, kind.keys[items.length]? = some name →
      (kind.readAt depth).Keeps (.array (items ++ value :: more) true) (.array (items ++ value' :: more) true) := by
  cases kind with
  | snapshot =>
    simp only [sites, List.mem_cons, List.not_mem_nil, or_false, Prod.mk.injEq] at sited
    obtain ⟨rfl, rfl⟩ := sited
    exact Snapshot.readBy.keeps_field (f := .classes) (by decide) rfl (h 0)
  | classDeclaration =>
    simp only [sites, List.mem_cons, List.not_mem_nil, or_false, Prod.mk.injEq] at sited
    have hnodup : ClassDeclaration.shape.keys.Nodup := by decide
    rcases sited with ⟨rfl, rfl⟩ | ⟨rfl, rfl⟩ | ⟨rfl, rfl⟩ | ⟨rfl, rfl⟩
    · exact ClassDeclaration.readBy.keeps_field (f := .annotations) hnodup rfl (h 0)
    · exact ClassDeclaration.readBy.keeps_field (f := .typeParameters) hnodup rfl (h nestingLimit)
    · exact ClassDeclaration.readBy.keeps_field (f := .members) hnodup rfl (h nestingLimit)
    · exact ClassDeclaration.readBy.keeps_field (f := .relations) hnodup rfl (h 0)
  | relationDeclaration | annotationRef => cases sited
  | operation =>
    simp only [sites, List.mem_cons, List.not_mem_nil, or_false, Prod.mk.injEq] at sited
    have hread := Details.readBy (Element.readAt depth)
    have hnodup : (Details.shape (Element.readAt depth)).keys.Nodup := by
      change ["parameters", "throwables"].Nodup
      decide
    rcases sited with ⟨rfl, rfl⟩ | ⟨rfl, rfl⟩
    · have hknown : (Details.shape (Element.readAt depth)).field? "parameters" = some .parameters := rfl
      exact hread.keeps_field hnodup hknown (h depth)
    · have hknown : (Details.shape (Element.readAt depth)).field? "throwables" = some .throwables := rfl
      exact hread.keeps_field hnodup hknown (h depth)
  | typeRef =>
    simp only [sites, List.mem_cons, List.not_mem_nil, or_false, Prod.mk.injEq] at sited
    obtain ⟨rfl, rfl⟩ := sited
    cases depth with
    | zero => exact ⟨fun _ _ _ => nofun, fun _ _ _ _ => nofun⟩
    | succ depth =>
      have hread := TypeRef.readBy (TypeRef.readAt depth)
      have hnodup : (TypeRef.shape (TypeRef.readAt depth)).keys.Nodup := by
        change ["name", "bounds"].Nodup
        decide
      have hknown : (TypeRef.shape (TypeRef.readAt depth)).field? "bounds" = some .bounds := rfl
      exact hread.keeps_field hnodup hknown (h depth)
  | element =>
    cases depth with
    | zero => exact ⟨fun _ _ _ => nofun, fun _ _ _ _ => nofun⟩
    | succ depth =>
      refine ⟨fun ms ns => ?_, fun _ _ _ _ => nofun⟩
      simp only [sites, List.mem_cons, List.not_mem_nil, or_false, Prod.mk.injEq] at sited
      rcases sited with ⟨rfl, rfl⟩ | ⟨rfl, rfl⟩ | ⟨rfl, rfl⟩
      · exact Element.replace (f := .annotations) rfl (h 0)
      · exact Element.replace (f := .declaredType) rfl ((h nestingLimit).optional hnull.1 hnull.2)
      · exact Element.replace (f := .details) rfl (h depth)

end RecordKind

end ClassAtlas
