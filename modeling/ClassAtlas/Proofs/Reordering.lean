import ClassAtlas.Proofs.Furnishing
import ClassAtlas.Proofs.Outcome
import Mathlib.Data.List.Forall2

/-! Snapshots in another order declare the same ids, references and hierarchy, and tell the same of every class
(`Snapshot.Reordered.describes`). What a snapshot tells of a class leaves no choice if its ids are distinct and its
mentions agree (`Snapshot.Describes.unique`). -/

namespace ClassAtlas

open ClassModel

/-- The declarations differ in the order of their interfaces at most. -/
structure ClassDeclaration.Reordered (d d' : ClassDeclaration) : Prop where
  interfaces : d.interfaces.Perm d'.interfaces
  rest : d' = { d with interfaces := d'.interfaces }

/-- The snapshots differ in the order of their classes, and these in the order of their interfaces, at most. -/
def Snapshot.Reordered (s s' : Snapshot) : Prop :=
  ∃ ds, s.classes.Perm ds ∧ List.Forall₂ ClassDeclaration.Reordered ds s'.classes

/-- The references to an undeclared id suggest one kind of placeholder. -/
def Snapshot.Unambiguous (s : Snapshot) : Prop :=
  ∀ r ∈ s.references, ∀ r' ∈ s.references, r.target = r'.target → r.target ∉ s.classes.map (·.id) →
    (placeholderRole r.relation).1 = (placeholderRole r'.relation).1

/-- The snapshot relates the ids of two classes. -/
def Snapshot.Relates (s : Snapshot) (a : String) (r : Relation) (b : String) : Prop :=
  b ≠ a ∧ ∃ d ∈ s.classes, d.id = a ∧ d.Names b r

/-- The snapshot has a class of the id, declared or mentioned. -/
def Snapshot.Has (s : Snapshot) (id : String) : Prop :=
  id ∈ s.classes.map (·.id) ∨ id ∈ s.references.map (·.target)

/-- The snapshot tells what the class of an id is: by its declaration, or else by a mention. -/
def Snapshot.Describes (s : Snapshot) (policy : Policy) (id : String) (c : Content) : Prop :=
  (∃ d ∈ s.classes, d.id = id ∧ c = d.content policy) ∨
    (id ∉ s.classes.map (·.id) ∧ ∃ r ∈ s.references, r.target = id ∧ c = r.content policy)

namespace ClassDeclaration.Reordered

variable {d d' : ClassDeclaration}

theorem id_eq (h : d.Reordered d') : d'.id = d.id := by
  rw [h.rest]

theorem content_eq (h : d.Reordered d') (policy : Policy) : d'.content policy = d.content policy := by
  rw [h.rest]
  rfl

theorem names_iff (h : d.Reordered d') (target : String) (r : Relation) : d'.Names target r ↔ d.Names target r := by
  rw [h.rest]
  cases r with
  | superInterface => exact or_congr_left h.interfaces.mem_iff.symm
  | _ => rfl

theorem extends_iff (h : d.Reordered d') (p : String) : d'.Extends p ↔ d.Extends p := by
  have hinterface : d'.isInterface = d.isInterface := by
    rw [h.rest]
    rfl
  rw [ClassDeclaration.extends_iff, ClassDeclaration.extends_iff, h.names_iff, h.names_iff, hinterface, h.id_eq]

theorem mem_references_iff (h : d.Reordered d') (r : RelationDeclaration) : r ∈ d'.references ↔ r ∈ d.references := by
  obtain ⟨o, t⟩ := r
  rw [ClassDeclaration.mem_references, ClassDeclaration.mem_references, h.rest]
  simp only [h.interfaces.mem_iff]

end ClassDeclaration.Reordered

theorem exists_mem_of_forall₂ {α β : Type} {R : α → β → Prop} {as : List α} {bs : List β}
    (hall : List.Forall₂ R as bs) {a : α} (ha : a ∈ as) : ∃ b ∈ bs, R a b := by
  induction hall with
  | nil => cases ha
  | @cons _ b _ _ hab _ ih =>
    rcases List.mem_cons.1 ha with rfl | ha
    · exact ⟨b, List.mem_cons_self .., hab⟩
    · obtain ⟨b', hb', hab'⟩ := ih ha
      exact ⟨b', List.mem_cons_of_mem b hb', hab'⟩

namespace Snapshot.Reordered

variable {s s' : Snapshot}

theorem ids_perm (h : s.Reordered s') : (s'.classes.map (·.id)).Perm (s.classes.map (·.id)) := by
  obtain ⟨ds, hp, hall⟩ := h
  have hids {es es' : List ClassDeclaration} (he : List.Forall₂ ClassDeclaration.Reordered es es') :
      es'.map (·.id) = es.map (·.id) := by
    induction he with
    | nil => rfl
    | cons hd _ ih => rw [List.map_cons, List.map_cons, hd.id_eq, ih]
  rw [hids hall]
  exact (hp.map _).symm

theorem exists_mem (h : s.Reordered s') {d : ClassDeclaration} (hd : d ∈ s.classes) :
    ∃ d' ∈ s'.classes, d.Reordered d' := by
  obtain ⟨ds, hp, hall⟩ := h
  exact exists_mem_of_forall₂ hall (hp.mem_iff.1 hd)

theorem exists_mem' (h : s.Reordered s') {d' : ClassDeclaration} (hd : d' ∈ s'.classes) :
    ∃ d ∈ s.classes, d.Reordered d' := by
  obtain ⟨ds, hp, hall⟩ := h
  obtain ⟨d, hmem, hre⟩ := exists_mem_of_forall₂ (List.Forall₂.flip (R := flip ClassDeclaration.Reordered) hall) hd
  exact ⟨d, hp.mem_iff.2 hmem, hre⟩

theorem mem_references_iff (h : s.Reordered s') (r : RelationDeclaration) : r ∈ s'.references ↔ r ∈ s.references := by
  simp only [Snapshot.references, List.mem_flatMap]
  constructor
  · rintro ⟨d', hd', hr⟩
    obtain ⟨d, hd, hre⟩ := h.exists_mem' hd'
    exact ⟨d, hd, (hre.mem_references_iff r).1 hr⟩
  · rintro ⟨d, hd, hr⟩
    obtain ⟨d', hd', hre⟩ := h.exists_mem hd
    exact ⟨d', hd', (hre.mem_references_iff r).2 hr⟩

theorem extends_eq (h : s.Reordered s') : s'.Extends = s.Extends := by
  funext p c
  apply propext
  constructor
  · rintro ⟨d', hd', hid, hext⟩
    obtain ⟨d, hd, hre⟩ := h.exists_mem' hd'
    exact ⟨d, hd, hre.id_eq ▸ hid, (hre.extends_iff p).1 hext⟩
  · rintro ⟨d, hd, hid, hext⟩
    obtain ⟨d', hd', hre⟩ := h.exists_mem hd
    exact ⟨d', hd', hre.id_eq.trans hid, (hre.extends_iff p).2 hext⟩

theorem relates_iff (h : s.Reordered s') (a : String) (r : Relation) (b : String) :
    s'.Relates a r b ↔ s.Relates a r b := by
  apply and_congr_right
  intro _
  constructor
  · rintro ⟨d', hd', hid, hnames⟩
    obtain ⟨d, hd, hre⟩ := h.exists_mem' hd'
    exact ⟨d, hd, hre.id_eq ▸ hid, (hre.names_iff b r).1 hnames⟩
  · rintro ⟨d, hd, hid, hnames⟩
    obtain ⟨d', hd', hre⟩ := h.exists_mem hd
    exact ⟨d', hd', hre.id_eq.trans hid, (hre.names_iff b r).2 hnames⟩

theorem has_iff (h : s.Reordered s') (id : String) : s'.Has id ↔ s.Has id := by
  apply or_congr h.ids_perm.mem_iff
  simp only [List.mem_map, h.mem_references_iff]

/-- What the one tells of a class the other tells too. -/
theorem describes (h : s.Reordered s') {policy : Policy} {id : String} {c : Content} (hs : s'.Describes policy id c) :
    s.Describes policy id c := by
  rcases hs with ⟨d', hd', hid, hc⟩ | ⟨hno, r, hr, hid, hc⟩
  · obtain ⟨d, hd, hre⟩ := h.exists_mem' hd'
    exact Or.inl ⟨d, hd, hre.id_eq ▸ hid, hc.trans (hre.content_eq policy)⟩
  · exact Or.inr ⟨mt h.ids_perm.mem_iff.2 hno, r, (h.mem_references_iff r).1 hr, hid, hc⟩

end Snapshot.Reordered

theorem placeholderRole_eq {r r' : Relation} (h : (placeholderRole r).1 = (placeholderRole r').1) :
    placeholderRole r = placeholderRole r' := by
  revert h
  cases r <;> cases r' <;> simp [placeholderRole]

/-- Distinct declarations and unambiguous mentions leave no choice. -/
theorem Snapshot.Describes.unique {s : Snapshot} {policy : Policy} {id : String} {c c' : Content}
    (hnodup : (s.classes.map (·.id)).Nodup) (hu : s.Unambiguous) (h : s.Describes policy id c)
    (h' : s.Describes policy id c') : c = c' := by
  rcases h with ⟨d, hd, hid, rfl⟩ | ⟨hno, r, hr, hid, rfl⟩ <;>
    rcases h' with ⟨d', hd', hid', rfl⟩ | ⟨hno', r', hr', hid', rfl⟩
  · rw [List.inj_on_of_nodup_map hnodup hd hd' (hid.trans hid'.symm)]
  · exact absurd (List.mem_map.2 ⟨d, hd, hid⟩) hno'
  · exact absurd (List.mem_map.2 ⟨d', hd', hid'⟩) hno
  · have hkind := hu r hr r' hr' (hid.trans hid'.symm) (hid ▸ hno)
    rw [RelationDeclaration.content, RelationDeclaration.content, placeholder, placeholder, hid, hid',
      placeholderRole_eq hkind]

end ClassAtlas
