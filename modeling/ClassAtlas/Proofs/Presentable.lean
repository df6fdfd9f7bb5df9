import ClassAtlas.Proofs.Gathering
import ClassAtlas.Snapshot.Json

/-! What is read from a record does not depend on how the record is presented: its members may be permuted, members that
are no fields may come and go, and so may fields that have their defaults (`Presentable`). This holds of records that
are read into one draft (`Shape.ReadBy.presentable`), and of elements, whose attributes are read from what the element
kept (`Element.presentable`). -/

namespace ClassAtlas

namespace Reader

variable {α : Type} {read : Reader α} {d d' : Document}

/-- What is read from the first document is also read from the second. -/
def Keeps (read : Reader α) (d d' : Document) : Prop := ∀ a, read d = .ok a → read d' = .ok a

theorem each_replace {items more : List Document} (h : read.Keeps d d') {as : List α}
    (heach : each read (items ++ d :: more) = .ok as) : each read (items ++ d' :: more) = .ok as := by
  induction items generalizing as with
  | nil =>
    obtain ⟨a, ha, heach⟩ := bind_eq_ok_iff.1 heach
    exact bind_eq_ok_iff.2 ⟨a, h a ha, heach⟩
  | cons item items ih =>
    obtain ⟨a, ha, heach⟩ := bind_eq_ok_iff.1 heach
    obtain ⟨bs, hbs, heach⟩ := bind_eq_ok_iff.1 heach
    exact bind_eq_ok_iff.2 ⟨a, ha, bind_eq_ok_iff.2 ⟨bs, ih hbs, heach⟩⟩

theorem Keeps.item (h : read.Keeps d d') (items more : List Document) :
    (list read).Keeps (.array (items ++ d :: more) true) (.array (items ++ d' :: more) true) := by
  intro as has
  obtain ⟨bs, hbs, has⟩ := bind_eq_ok_iff.1 has
  exact bind_eq_ok_iff.2 ⟨bs, each_replace h hbs, has⟩

/-- Documents other than null. -/
theorem Keeps.optional (h : read.Keeps d d') (hd : d ≠ .null) (hd' : d' ≠ .null) : (optional read).Keeps d d' := by
  intro o ho
  have hread : ∀ {d : Document}, d ≠ .null → Reader.optional read d = (read d).map some := by
    intro d hne
    unfold Reader.optional
    split
    · exact absurd rfl hne
    · rfl
  rw [hread hd] at ho
  obtain ⟨a, ha, rfl⟩ := map_eq_ok_iff.1 ho
  rw [hread hd', h a ha]
  rfl

end Reader

open Reader

/-- Records with some keys are read alike however they are presented: in any order of their members, with or without
members that are no fields, and with or without fields that have their defaults. -/
structure Presentable {α : Type} (read : Reader α) (keys : List String) (default : String → Document → Prop)
    (admits : Document → Prop) : Prop where
  permute {ms ns : List (Option String × Document)} (hperm : ms.Perm ns) :
    read.Keeps (.object ms true) (.object ns true)
  insert {ms ns : List (Option String × Document)} {key : String} {value : Document} (hkey : key ∉ keys)
    (hvalue : admits value) : read.Keeps (.object (ms ++ ns) true) (.object (ms ++ (some key, value) :: ns) true)
  remove {ms ns : List (Option String × Document)} {key : String} {value : Document} (hdefault : default key value) :
    read.Keeps (.object (ms ++ (some key, value) :: ns) true) (.object (ms ++ ns) true)

namespace Presentable

variable {α : Type} {read : Reader α} {keys : List String} {default default' : String → Document → Prop}
  {admits : Document → Prop}

theorem of_default (h : Presentable read keys default admits) (hdefault : ∀ key d, default' key d → default key d) :
    Presentable read keys default' admits :=
  ⟨h.permute, h.insert, fun hd => h.remove (hdefault _ _ hd)⟩

theorem of_error (h : ∀ d a, read d ≠ .ok a) : Presentable read keys default admits :=
  ⟨fun _ a ha => absurd ha (h _ a), fun _ _ a ha => absurd ha (h _ a), fun _ a ha => absurd ha (h _ a)⟩

end Presentable

namespace Shape

variable {F α : Type} [DecidableEq F] {shape : Shape F} {read : Reader α}

/-- The keys of the fields in their order. -/
def keys (shape : Shape F) : List String := shape.fields.map shape.key

/-- All that the reader does with a draft is to take its fields. -/
def ReadBy (shape : Shape F) (read : Reader α) : Prop :=
  ∃ build : ((f : F) → Except Fault (shape.Value f)) → Except Fault α,
    ∀ d, read d = (shape.draft d).bind fun draft => build draft.take

theorem draft_object_iff {ms : List (Option String × Document)} {draft : Draft shape} :
    shape.draft (.object ms true) = .ok draft ↔ ∃ os, Gathers shape Document.wellFormed ms .empty draft os := by
  constructor
  · intro h
    obtain ⟨r, hgather, h⟩ := bind_eq_ok_iff.1 h
    cases h
    exact ⟨r.2, Gathers.gather_eq_ok_iff.1 hgather⟩
  · rintro ⟨os, h⟩
    rw [Shape.draft, Gathers.gather_eq_ok_iff.2 h]
    rfl

namespace ReadBy

variable {ms ns : List (Option String × Document)} {d d' : Document} {key : String} {value value' : Document} {f : F}

theorem keeps (hread : shape.ReadBy read)
    (h : ∀ x, shape.draft d = .ok x → ∃ y, shape.draft d' = .ok y ∧ y.take = x.take) : read.Keeps d d' := by
  obtain ⟨build, hread⟩ := hread
  intro a ha
  rw [hread] at ha ⊢
  obtain ⟨x, hx, ha⟩ := bind_eq_ok_iff.1 ha
  obtain ⟨y, hy, htake⟩ := h x hx
  exact bind_eq_ok_iff.2 ⟨y, hy, htake ▸ ha⟩

theorem keeps_object (hread : shape.ReadBy read) (h : ∀ x os, Gathers shape Document.wellFormed ms .empty x os →
    ∃ y os', Gathers shape Document.wellFormed ns .empty y os' ∧ y.take = x.take) :
    read.Keeps (.object ms true) (.object ns true) := by
  refine hread.keeps fun x hx => ?_
  obtain ⟨os, hos⟩ := draft_object_iff.1 hx
  obtain ⟨y, os', hos', htake⟩ := h x os hos
  exact ⟨y, draft_object_iff.2 ⟨os', hos'⟩, htake⟩

theorem presentable (hread : shape.ReadBy read) :
    Presentable read shape.keys shape.Default fun value => value.wellFormed = true where
  permute hperm := by
    refine hread.keeps_object fun x os h => ?_
    obtain ⟨os', h', -⟩ := h.perm hperm
    exact ⟨x, os', h', rfl⟩
  insert hkey hvalue := by
    refine hread.keeps_object fun x os h => ?_
    obtain ⟨os₁, os₂, -, h'⟩ := h.insert (field?_eq_none_iff.2 hkey) hvalue
    exact ⟨x, _, h', rfl⟩
  remove hdefault := by
    refine hread.keeps_object fun x os h => ?_
    obtain ⟨y, h', htake⟩ := h.remove hdefault
    exact ⟨y, os, h', htake⟩

theorem replace (hread : shape.ReadBy read) (known : shape.field? key = some f)
    (h : (shape.read f).Keeps value value') :
    read.Keeps (.object (ms ++ (some key, value) :: ns) true) (.object (ms ++ (some key, value') :: ns) true) :=
  hread.keeps_object fun x os hos => ⟨x, os, hos.replace known h, rfl⟩

/-- The record as an array of its fields. -/
theorem replace_item (hread : shape.ReadBy read) {items more : List Document}
    (hkey : shape.keys[items.length]? = some key) (hnodup : shape.keys.Nodup) (known : shape.field? key = some f)
    (h : (shape.read f).Keeps value value') :
    read.Keeps (.array (items ++ value :: more) true) (.array (items ++ value' :: more) true) := by
  refine hread.keeps fun x hx => ⟨x, ?_, rfl⟩
  obtain ⟨y, hfill, hx⟩ := bind_eq_ok_iff.1 hx
  refine bind_eq_ok_iff.2 ⟨y, fill_replace hfill fun g hg => ?_, hx⟩
  rw [keys, List.getElem?_map, hg] at hkey
  obtain rfl := Option.some.inj hkey
  rw [field?_key hnodup (List.mem_of_getElem? hg)] at known
  obtain rfl := Option.some.inj known
  exact h

/-- A field whose value is read as before, in a record of either form. -/
theorem keeps_field (hread : shape.ReadBy read) (hnodup : shape.keys.Nodup) (known : shape.field? key = some f)
    (h : (shape.read f).Keeps value value') :
    (∀ ms ns, read.Keeps (.object (ms ++ (some key, value) :: ns) true)
      (.object (ms ++ (some key, value') :: ns) true)) ∧
      ∀ items more, shape.keys[items.length]? = some key →
        read.Keeps (.array (items ++ value :: more) true) (.array (items ++ value' :: more) true) :=
  ⟨fun _ _ => hread.replace known h, fun _ _ hkey => hread.replace_item hkey hnodup known h⟩

end ReadBy

end Shape

theorem AnnotationRef.readBy : shape.ReadBy read :=
  ⟨fun take => do return ⟨← take .id, ← take .name⟩, fun _ => rfl⟩

theorem TypeRef.readBy (bound : Reader TypeRef) : (shape bound).ReadBy (readWith bound) :=
  ⟨fun take => do return ⟨← take .name, ← take .bounds⟩, fun _ => rfl⟩

theorem Details.readBy {ε : Type} (element : Reader ε) : (shape element).ReadBy (readOperation element) :=
  ⟨fun take => do return .operation (← take .parameters) (← take .throwables), fun _ => rfl⟩

theorem RelationDeclaration.readBy : shape.ReadBy read :=
  ⟨fun take => do return ⟨← take .relation, ← take .target⟩, fun _ => rfl⟩

theorem ClassDeclaration.readBy : shape.ReadBy read :=
  ⟨fun take => do
    return {
      id := ← take .id
      name := ← take .name
      kind := ← take .kind
      visibility := ← take .visibility
      modifiers := ← take .modifiers
      annotations := ← take .annotations
      typeParameters := ← take .typeParameters
      superClass := ← take .superClass
      interfaces := ← take .interfaces
      members := ← take .members
      relations := ← take .relations }, fun _ => rfl⟩

theorem Snapshot.readBy : shape.ReadBy read := ⟨fun take => do return ⟨← take .classes⟩, fun _ => rfl⟩

namespace Attributes

/-- The attributes of an element, read from what it kept. -/
abbrev keptShape : Shape Field := shape keptVariant

/-- What is read from the first members is also read from the second, if these fill the same fields. -/
theorem ofKept_keeps {os os' : List (Option String × Document)}
    (h : ∀ x rs, Gathers keptShape (fun _ => true) os .empty x rs →
      ∃ y rs', Gathers keptShape (fun _ => true) os' .empty y rs' ∧ y.take = x.take) {a : Attributes}
    (ha : ofKept os = .ok a) : ofKept os' = .ok a := by
  obtain ⟨x, hx, ha⟩ := bind_eq_ok_iff.1 ha
  obtain ⟨⟨x, rs⟩, hgather, rfl⟩ := map_eq_ok_iff.1 hx
  obtain ⟨y, rs', hgather', htake⟩ := h x rs (Gathers.gather_eq_ok_iff.1 hgather)
  refine bind_eq_ok_iff.2 ⟨y, map_eq_ok_iff.2 ⟨_, Gathers.gather_eq_ok_iff.2 hgather', rfl⟩, ?_⟩
  rw [ofDraft] at ha ⊢
  rw [htake]
  exact ha

end Attributes

namespace Element

variable {nested : Reader Element} {ms ns : List (Option String × Document)}

/-- The own fields of an element and its attributes. -/
def keys : List String := (shape read).keys ++ Attributes.keptShape.keys

/-- What is built from the own fields and the attributes of an element. -/
def build (take : (f : Field) → Except Fault ((shape nested).Value f)) (attributes : Except Fault Attributes) :
    Except Fault Element := do
  let annotations ← take .annotations
  let declaredType ← take .declaredType
  let suffix ← take .suffix
  let details ← take .details
  return ⟨← attributes, annotations, declaredType, suffix, details⟩

theorem readWith_eq (d : Document) : readWith nested d =
    ((shape nested).draftKeeping d).bind fun r => build r.1.take (Attributes.ofKept r.2) := rfl

theorem build_keeps {take : (f : Field) → Except Fault ((shape nested).Value f)} {x y : Except Fault Attributes}
    (h : ∀ a, x = .ok a → y = .ok a) {e : Element} (he : build take x = .ok e) : build take y = .ok e := by
  obtain ⟨annotations, hannotations, he⟩ := bind_eq_ok_iff.1 he
  obtain ⟨declaredType, hdeclaredType, he⟩ := bind_eq_ok_iff.1 he
  obtain ⟨suffix, hsuffix, he⟩ := bind_eq_ok_iff.1 he
  obtain ⟨details, hdetails, he⟩ := bind_eq_ok_iff.1 he
  obtain ⟨attributes, hattributes, he⟩ := bind_eq_ok_iff.1 he
  rw [build, hannotations, hdeclaredType, hsuffix, hdetails, h attributes hattributes]
  exact he

theorem draftKeeping_object_iff {x : Draft (shape nested)} {os : List (Option String × Document)} :
    (shape nested).draftKeeping (.object ms true) = .ok (x, os) ↔
      Gathers (shape nested) Document.sound ms .empty x os := by
  rw [← Gathers.gather_eq_ok_iff]
  constructor
  · intro h
    obtain ⟨found, hgather, h⟩ := bind_eq_ok_iff.1 h
    cases h
    exact hgather
  · intro h
    exact bind_eq_ok_iff.2 ⟨_, h, rfl⟩

/-- The own fields are taken from the draft, and the attributes from what was kept. -/
theorem keeps_object (h : ∀ x os, Gathers (shape nested) Document.sound ms .empty x os →
    ∃ y os', Gathers (shape nested) Document.sound ns .empty y os' ∧ y.take = x.take ∧
      ∀ a, Attributes.ofKept os = .ok a → Attributes.ofKept os' = .ok a) :
    (readWith nested).Keeps (.object ms true) (.object ns true) := by
  intro e he
  rw [readWith_eq] at he ⊢
  obtain ⟨⟨x, os⟩, hx, he⟩ := bind_eq_ok_iff.1 he
  obtain ⟨y, os', hy, htake, hkept⟩ := h x os (draftKeeping_object_iff.1 hx)
  refine bind_eq_ok_iff.2 ⟨(y, os'), draftKeeping_object_iff.2 hy, ?_⟩
  dsimp only at he ⊢
  rw [htake]
  exact build_keeps hkept he

/-- An attribute is no own field. -/
theorem field?_attribute {key : String} {value : Document} (h : Attributes.keptShape.Default key value) :
    (shape nested).field? key = none := by
  obtain ⟨f, -, hfield, -⟩ := h
  rw [← Shape.key_of_field? hfield]
  cases f <;> rfl

theorem presentable (nested : Reader Element) : Presentable (readWith nested) keys
    (fun key value => (shape nested).Default key value ∨ Attributes.keptShape.Default key value)
    fun value => value.sound = true where
  permute hperm := by
    refine keeps_object fun x os h => ?_
    obtain ⟨os', h', hos⟩ := h.perm hperm
    refine ⟨x, os', h', rfl, fun a => Attributes.ofKept_keeps fun y rs hy => ?_⟩
    obtain ⟨rs', hy', -⟩ := hy.perm hos
    exact ⟨y, rs', hy', rfl⟩
  insert hkey hvalue := by
    rw [keys, List.mem_append, not_or] at hkey
    refine keeps_object fun x os h => ?_
    obtain ⟨os₁, os₂, rfl, h'⟩ := h.insert (Shape.field?_eq_none_iff.2 hkey.1) hvalue
    refine ⟨x, _, h', rfl, fun a => Attributes.ofKept_keeps fun y rs hy => ?_⟩
    obtain ⟨rs₁, rs₂, -, hy'⟩ := hy.insert (Shape.field?_eq_none_iff.2 hkey.2) rfl
    exact ⟨y, _, hy', rfl⟩
  remove hdefault := by
    refine keeps_object fun x os h => ?_
    rcases hdefault with hown | hattribute
    · obtain ⟨y, h', htake⟩ := h.remove hown
      exact ⟨y, os, h', htake, fun a ha => ha⟩
    · obtain ⟨os₁, os₂, rfl, h'⟩ := h.drop (field?_attribute hattribute)
      refine ⟨x, _, h', rfl, fun a => Attributes.ofKept_keeps fun y rs hy => ?_⟩
      obtain ⟨z, hz, htake⟩ := hy.remove hattribute
      exact ⟨z, rs, hz, htake⟩

/-- A value of an own field that is read as before. -/
theorem replace {key : String} {value value' : Document} {f : Field} (known : (shape nested).field? key = some f)
    (h : ((shape nested).read f).Keeps value value') : (readWith nested).Keeps
      (.object (ms ++ (some key, value) :: ns) true) (.object (ms ++ (some key, value') :: ns) true) :=
  keeps_object fun x os hos => ⟨x, os, hos.replace known h, rfl, fun _ ha => ha⟩

end Element

end ClassAtlas
