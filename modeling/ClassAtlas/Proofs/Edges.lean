import ClassAtlas.Proofs.Assembly

/-! The edges of a built model are those that the declarations of its snapshot name, and the inbound cells mirror
the outbound ones. -/

namespace ClassAtlas

open ClassModel

/-- Which of the relations that exclude one another the declaration lists first for a target. -/
def ClassDeclaration.firstChecked (d : ClassDeclaration) (target : String) : Option Relation :=
  (d.relations.find? fun k => k.relation ∈ [.innerClass, .association, .dependency] && k.target = target).map
    (·.relation)

/-- The declaration relates its class to the target. -/
def ClassDeclaration.Names (d : ClassDeclaration) (target : String) : Relation → Prop
  | .superClass => d.superClass = some target ∨ ⟨.superClass, target⟩ ∈ d.relations
  | .superInterface => target ∈ d.interfaces ∨ ⟨.superInterface, target⟩ ∈ d.relations
  | .throwsDependency => ⟨.throwsDependency, target⟩ ∈ d.relations
  | .annotationDependency => ⟨.annotationDependency, target⟩ ∈ d.relations
  | .innerClass => d.firstChecked target = some .innerClass
  | .association => d.firstChecked target = some .association
  | .dependency => d.firstChecked target = some .dependency

structure EdgesOf (s : Snapshot) (m : ClassModel) : Prop where
  declared : ∀ d ∈ s.classes, ∃ h < m.size, (m.classAt h).element = d.toElement
  referenced : ∀ d ∈ s.classes, ∀ id,
    (d.superClass = some id ∨ id ∈ d.interfaces ∨ ∃ r, ⟨r, id⟩ ∈ d.relations) → ∃ h < m.size, (m.classAt h).id = id
  unique : ∀ h i, h < m.size → i < m.size → (m.classAt h).id = (m.classAt i).id → h = i
  isInterface : ∀ d ∈ s.classes, ∀ h < m.size, (m.classAt h).id = d.id →
    ((m.classAt h).isInterface = true ↔ d.kind = .interface ∨ d.modifiers.contains .interface = true)
  outbound : ∀ d ∈ s.classes, ∀ h < m.size, (m.classAt h).id = d.id → ∀ t < m.size, t ≠ h → ∀ r,
    (t ∈ (m.classAt h).targets .outbound r ↔ d.Names (m.classAt t).id r)
  undeclared : ∀ h, (∀ d ∈ s.classes, d.id ≠ (m.classAt h).id) → ∀ r,
    (m.classAt h).targets .outbound r = []
  inside : ∀ h d r, ∀ t ∈ (m.classAt h).targets d r, t < m.size ∧ t ≠ h
  mirrored : ∀ h t r, r ≠ .superClass → r ≠ .superInterface →
    (h ∈ (m.classAt t).targets .inbound r ↔ t ∈ (m.classAt h).targets .outbound r)
  subclass : ∀ h t, h ∈ (m.classAt t).targets .inbound .superClass ↔
    t ∈ (m.classAt h).targets .outbound .superClass ∨
      ((m.classAt h).isInterface = false ∧ t ∈ (m.classAt h).targets .outbound .superInterface)
  subinterface : ∀ h t, h ∈ (m.classAt t).targets .inbound .superInterface ↔
    (m.classAt h).isInterface = true ∧ t ∈ (m.classAt h).targets .outbound .superInterface

namespace ClassDeclaration

variable {d : ClassDeclaration} {target : String} {r : Relation}

theorem isInterface_iff : d.isInterface = true ↔ d.kind = .interface ∨ d.modifiers.contains .interface = true := by
  simp [isInterface]

theorem mem_references : ⟨r, target⟩ ∈ d.references ↔ (r = .superClass ∧ d.superClass = some target) ∨
    (r = .superInterface ∧ target ∈ d.interfaces) ∨ ⟨r, target⟩ ∈ d.relations := by
  simp only [references, List.mem_append, List.mem_map, Option.mem_toList, RelationDeclaration.mk.injEq, or_assoc]
  constructor
  · rintro (⟨x, hx, rfl, rfl⟩ | ⟨x, hx, rfl, rfl⟩ | h)
    exacts [Or.inl ⟨rfl, hx⟩, Or.inr (Or.inl ⟨rfl, hx⟩), Or.inr (Or.inr h)]
  · rintro (⟨rfl, hx⟩ | ⟨rfl, hx⟩ | h)
    exacts [Or.inl ⟨target, hx, rfl, rfl⟩, Or.inr (Or.inl ⟨target, hx, rfl, rfl⟩), Or.inr (Or.inr h)]

theorem exists_mem_references : (∃ r, ⟨r, target⟩ ∈ d.references) ↔
    d.superClass = some target ∨ target ∈ d.interfaces ∨ ∃ r, ⟨r, target⟩ ∈ d.relations := by
  simp only [mem_references, exists_or, exists_eq_left]

theorem find?_checkable (d : ClassDeclaration) (target : String) :
    (d.relations.find? fun k => k.relation.isCheckable && k.target = target).map (·.relation) =
      d.firstChecked target := by
  have hcheckable (r : Relation) : r.isCheckable = decide (r ∈ [Relation.innerClass, .association, .dependency]) := by
    cases r <;> rfl
  simp only [hcheckable, firstChecked]

/-- Super class and interfaces are not checkable, so the entries of the relations decide. -/
theorem find?_references : d.references.find? (fun k => k.relation.isCheckable && k.target = target) =
    d.relations.find? fun k => k.relation.isCheckable && k.target = target := by
  have hnone : ∀ (r : Relation) (ids : List String), r.isCheckable = false →
      (ids.map fun id => (⟨r, id⟩ : RelationDeclaration)).find?
        (fun k => k.relation.isCheckable && k.target = target) = none := by
    intro r ids hr
    rw [List.find?_eq_none]
    intro k hk
    obtain ⟨id, -, rfl⟩ := List.mem_map.1 hk
    simp [hr]
  rw [references, List.find?_append, List.find?_append, hnone _ _ rfl, hnone _ _ rfl]
  rfl

theorem stands_checkable (hr : r.isCheckable = true) :
    Stands d.references ⟨r, target⟩ ↔ d.firstChecked target = some r := by
  rw [← find?_checkable, Stands, find?_references, Option.map_eq_some_iff]
  simp only [hr, true_imp_iff]
  constructor
  · rintro ⟨-, h⟩
    exact ⟨⟨r, target⟩, h, rfl⟩
  · rintro ⟨⟨o, t⟩, h, rfl⟩
    have hk := List.find?_some h
    simp only [Bool.and_eq_true, decide_eq_true_eq] at hk
    obtain ⟨-, rfl⟩ := hk
    exact ⟨mem_references.2 (Or.inr (Or.inr (List.mem_of_find?_eq_some h))), h⟩

theorem stands_references : Stands d.references ⟨r, target⟩ ↔ d.Names target r := by
  by_cases hr : r.isCheckable = true
  · rw [stands_checkable hr]
    cases r <;> simp_all [Names, Relation.isCheckable]
  · have hmem : Stands d.references ⟨r, target⟩ ↔ ⟨r, target⟩ ∈ d.references := by
      simp [Stands, hr]
    rw [hmem, mem_references]
    cases r <;> simp_all [Names, Relation.isCheckable]

end ClassDeclaration

namespace Assembled

variable {s : Snapshot} {m : ClassModel} {h t : Handle} {d : ClassDeclaration} {r : Relation}

theorem mem_outbound (hm : Assembled s m) : t ∈ (m.classAt h).targets .outbound r ↔
    t < m.size ∧ h ≠ t ∧ Stands (s.referencesOf h) ⟨r, (m.classAt t).id⟩ := by
  rw [hm.records.outbound]
  constructor
  · rintro ⟨i, ht, hne, -, hstands⟩
    exact ⟨ht, hne, hstands⟩
  · rintro ⟨ht, hne, hstands⟩
    exact ⟨m.listing h r, ht, hne, rfl, hstands⟩

theorem mem_inbound (hm : Assembled s m) : h ∈ (m.classAt t).targets .inbound r ↔
    ∃ o, t ∈ (m.classAt h).targets .outbound o ∧ r = m.listing h o := by
  rw [hm.records.inbound]
  refine exists_congr fun o => ?_
  rw [hm.mem_outbound]
  constructor
  · rintro ⟨ht, hne, hr, hstands⟩
    exact ⟨⟨ht, hne, hstands⟩, hr⟩
  · rintro ⟨⟨ht, hne, hstands⟩, hr⟩
    exact ⟨ht, hne, hr, hstands⟩

theorem id_eq (hm : Assembled s m) (hd : s.classes[h]? = some d) : (m.classAt h).id = d.id :=
  congrArg Element.id (hm.declared h d hd).2

/-- The class with the id of a declaration is the one at its place. -/
theorem getElem?_of_id (hm : Assembled s m) (hd : d ∈ s.classes) (hh : h < m.size)
    (hid : (m.classAt h).id = d.id) : s.classes[h]? = some d := by
  obtain ⟨k, hk⟩ := List.getElem?_of_mem hd
  obtain rfl := hm.wellFormed.unique h k hh (hm.declared k d hk).1 (hid.trans (hm.id_eq hk).symm)
  exact hk

/-- A class that lists anything outbound has a declaration. -/
theorem getElem?_of_mem_outbound (hm : Assembled s m) (ht : t ∈ (m.classAt h).targets .outbound r) :
    ∃ d, s.classes[h]? = some d := by
  obtain ⟨-, -, hstands⟩ := hm.mem_outbound.1 ht
  cases hd : s.classes[h]? with
  | some d => exact ⟨d, rfl⟩
  | none =>
    rw [Snapshot.referencesOf_none hd] at hstands
    exact absurd hstands.1 List.not_mem_nil

/-- An id that a declaration refers to has a class. -/
theorem handle?_of_mem (hm : Assembled s m) (hd : d ∈ s.classes) {id : String}
    (hr : ⟨r, id⟩ ∈ d.references) : ∃ t, m.handle? id = some t := by
  obtain ⟨k, hk⟩ := List.getElem?_of_mem hd
  rw [← Snapshot.referencesOf_some hk] at hr
  exact Option.ne_none_iff_exists'.1 (hm.resolved k _ hr)

theorem isInterface_eq (hm : Assembled s m) (hd : s.classes[h]? = some d) :
    (m.classAt h).isInterface = d.isInterface := by
  have helement := (hm.declared h d hd).2
  rw [ClassNode.isInterface, ClassNode.attributes, helement, ClassDeclaration.toElement, Attributes.has]
  cases hi : d.isInterface with
  | true => simp [ModifierSet.contains_insert]
  | false =>
    rw [ClassDeclaration.isInterface, Bool.or_eq_false_iff] at hi
    exact hi.2

theorem mem_outbound_declared (hm : Assembled s m) (hd : s.classes[h]? = some d) :
    t ∈ (m.classAt h).targets .outbound r ↔ t < m.size ∧ h ≠ t ∧ d.Names (m.classAt t).id r := by
  rw [hm.mem_outbound, Snapshot.referencesOf_some hd, ClassDeclaration.stands_references]

theorem mem_subclass (hm : Assembled s m) : h ∈ (m.classAt t).targets .inbound .superClass ↔
    t ∈ (m.classAt h).targets .outbound .superClass ∨
      ((m.classAt h).isInterface = false ∧ t ∈ (m.classAt h).targets .outbound .superInterface) := by
  rw [hm.mem_inbound]
  constructor
  · rintro ⟨o, ht, ho⟩
    unfold listing at ho
    split at ho
    · rename_i hsuper
      obtain ⟨rfl, hint⟩ := hsuper
      exact Or.inr ⟨hint, ht⟩
    · exact Or.inl (ho ▸ ht)
  · rintro (ht | ⟨hint, ht⟩)
    · exact ⟨.superClass, ht, by simp [listing]⟩
    · exact ⟨.superInterface, ht, by simp [listing, hint]⟩

theorem mem_subinterface (hm : Assembled s m) : h ∈ (m.classAt t).targets .inbound .superInterface ↔
    (m.classAt h).isInterface = true ∧ t ∈ (m.classAt h).targets .outbound .superInterface := by
  rw [hm.mem_inbound]
  constructor
  · rintro ⟨o, ht, ho⟩
    unfold listing at ho
    split at ho
    · cases ho
    · rename_i hsuper
      subst ho
      exact ⟨by simpa using hsuper, ht⟩
  · rintro ⟨hint, ht⟩
    exact ⟨.superInterface, ht, by simp [listing, hint]⟩

theorem mem_inbound_same (hm : Assembled s m) (hc : r ≠ .superClass) (hi : r ≠ .superInterface) :
    h ∈ (m.classAt t).targets .inbound r ↔ t ∈ (m.classAt h).targets .outbound r := by
  have hlisting : m.listing h r = r := if_neg fun e => hi e.1
  rw [hm.mem_inbound]
  constructor
  · rintro ⟨o, ht, ho⟩
    unfold listing at ho
    split at ho
    · exact absurd ho hc
    · exact ho ▸ ht
  · exact fun ht => ⟨r, ht, hlisting.symm⟩

theorem outbound_eq_nil (hm : Assembled s m) (hh : ∀ d ∈ s.classes, d.id ≠ (m.classAt h).id) :
    (m.classAt h).targets .outbound r = [] := by
  refine List.eq_nil_iff_forall_not_mem.2 fun t ht => ?_
  obtain ⟨d, hd⟩ := hm.getElem?_of_mem_outbound ht
  exact hh d (List.mem_of_getElem? hd) (hm.id_eq hd).symm

theorem edges (hm : Assembled s m) : EdgesOf s m where
  declared d hd := by
    obtain ⟨k, hk⟩ := List.getElem?_of_mem hd
    exact ⟨k, hm.declared k d hk⟩
  referenced d hd id hid := by
    obtain ⟨r, hr⟩ := ClassDeclaration.exists_mem_references.2 hid
    obtain ⟨t, ht⟩ := hm.handle?_of_mem hd hr
    exact ⟨t, (handle?_eq_some_iff hm.wellFormed).1 ht⟩
  unique := hm.wellFormed.unique
  isInterface d hd h hh hid := by
    rw [hm.isInterface_eq (hm.getElem?_of_id hd hh hid), ClassDeclaration.isInterface_iff]
  outbound d hd h hh hid t ht hne r := by
    rw [hm.mem_outbound_declared (hm.getElem?_of_id hd hh hid)]
    exact ⟨fun hn => hn.2.2, fun hn => ⟨ht, Ne.symm hne, hn⟩⟩
  undeclared h hh r := hm.outbound_eq_nil hh
  inside h d r t ht := hm.wellFormed.targets h d r t ht
  mirrored h t r hc hi := hm.mem_inbound_same hc hi
  subclass h t := hm.mem_subclass
  subinterface h t := hm.mem_subinterface

end Assembled

theorem exists_of_isOk {ε α : Type} {e : Except ε α} (h : e.isOk = true) : ∃ a, e = .ok a := by
  cases e with
  | error r => cases h
  | ok a => exact ⟨a, rfl⟩

/-- What is found of a result is a fact about it. -/
theorem apply_of_ok {ε α β : Type} {e : Except ε α} {a : α} (he : e = .ok a) {f : α → β} {b : β}
    (h : e.toOption.map f = some b) : f a = b := by
  rw [he] at h
  exact Option.some.inj h

namespace Snapshot

variable {policy : Policy} {s : Snapshot} {m : ClassModel} {stats : BuildStats}

/-- An accepted snapshot has an assembled model. -/
theorem assembled_of_build (h : s.build policy = .ok (m, stats)) : Assembled s m := by
  unfold build at h
  by_cases hnodup : (s.classes.map (·.id)).Nodup
  · obtain ⟨p, hp, -, hm⟩ := Build.assemble_ok policy hnodup
    rw [hp] at h
    simp only [bind, Except.bind] at h
    split at h
    · cases h
    · cases h
      exact hm
  · obtain ⟨id, r, he⟩ := Build.assemble_duplicate policy hnodup
    rw [he] at h
    cases h

theorem build_edges (h : s.build policy = .ok (m, stats)) : EdgesOf s m := (assembled_of_build h).edges

/-- Classes that refer to one another, to themselves and to undeclared ids, to some of them repeatedly. -/
def tangled : Snapshot where
  classes :=
    [{ id := "A", superClass := some "B", interfaces := ["I", "A", "I"],
       relations := [⟨.association, "B"⟩, ⟨.dependency, "B"⟩, ⟨.superInterface, "J"⟩,
        ⟨.throwsDependency, "E"⟩, ⟨.innerClass, "A"⟩, ⟨.superClass, "C"⟩] },
     { id := "I", kind := .interface, interfaces := ["J"], relations := [⟨.innerClass, "A"⟩, ⟨.dependency, "A"⟩] },
     { id := "B" }]

theorem build_edges_tangled : ∃ m stats, tangled.build .byKind = .ok (m, stats) ∧ EdgesOf tangled m ∧
    m.classes.map (fun n =>
        (n.id, (every Relation).map (n.targets .outbound), (every Relation).map (n.targets .inbound))) =
      [("A", [[2, 5], [1, 3], [], [2], [], [4], []], [[], [], [1], [], [], [], []]),
       ("I", [[], [3], [0], [], [], [], []], [[0], [], [], [], [], [], []]),
       ("B", [[], [], [], [], [], [], []], [[0], [], [], [0], [], [], []]),
       ("J", [[], [], [], [], [], [], []], [[0], [1], [], [], [], [], []]),
       ("E", [[], [], [], [], [], [], []], [[], [], [], [], [], [0], []]),
       ("C", [[], [], [], [], [], [], []], [[0], [], [], [], [], [], []])] := by
  have hok : (tangled.build .byKind).isOk = true := by decide +kernel
  obtain ⟨built, hb⟩ := exists_of_isOk hok
  exact ⟨built.1, built.2, hb, build_edges hb,
    apply_of_ok (f := fun b => b.1.classes.map _) hb (by decide +kernel)⟩

end Snapshot

end ClassAtlas
