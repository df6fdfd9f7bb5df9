import ClassAtlas.Model.Operation
import Mathlib.Data.List.Basic

/-! What a change of a node shows in its cells and ledgers, and that a change of one class leaves the other
classes of a model alone. Freezing only reorders: it keeps the members of every cell. -/

namespace ClassAtlas

namespace ClassNode

variable {n : ClassNode} {d d' : Direction} {r r' : Relation} {t x : Handle}

@[simp] theorem cell_note : (n.note d r t).cell d' r' = n.cell d' r' := by
  unfold note; split <;> rfl

@[simp] theorem ledger_put : (n.put d r t).ledger d' = n.ledger d' := rfl

theorem mem_ledger_note :
    x ∈ (n.note d r t).ledger d' ↔ x ∈ n.ledger d' ∨ (d' = d ∧ r.isCheckable = true ∧ x = t) := by
  unfold note
  split
  · rename_i hr
    by_cases hd : d' = d
    · subst hd; simp [ledger, EnumMap.get_modify, hr]
    · simp [ledger, EnumMap.get_modify, hd]
  · simp_all

theorem cell_put :
    (n.put d r t).cell d' r' = if d' = d ∧ r' = r then (n.cell d r).insert t else n.cell d' r' := by
  simp [put, cell, EnumMap.get_modify]

theorem mem_targets_put :
    x ∈ (n.put d r t).targets d' r' ↔ x ∈ n.targets d' r' ∨ (d' = d ∧ r' = r ∧ x = t) := by
  rw [targets, cell_put]
  split
  · rename_i h
    obtain ⟨rfl, rfl⟩ := h
    rw [Cell.mem_insert]
    simp [targets, or_comm]
  · rename_i h
    refine ⟨Or.inl, fun hx => hx.resolve_right fun e => h ⟨e.1, e.2.1⟩⟩

/-- The ledger keeps a relation to the target out. -/
def Suppresses (n : ClassNode) (d : Direction) (r : Relation) (t : Handle) : Prop :=
  r.isCheckable = true ∧ t ∈ n.ledger d

/-- Everything that recording one side of a relation can do. -/
theorem record_cases (n : ClassNode) (d : Direction) (r : Relation) (t : Handle) :
    (n.Suppresses d r t ∧ n.record d r t = (n, none)) ∨
    (¬ n.Suppresses d r t ∧ (n.cell d r).frozen = true ∧
      n.record d r t = (n.note d r t, some (.frozenSlot (d, r) n.id))) ∨
    (¬ n.Suppresses d r t ∧ (n.cell d r).frozen = false ∧
      n.record d r t = ((n.note d r t).put d r t, none)) := by
  have hid : (n.note d r t).id = n.id := by unfold note; split <;> rfl
  by_cases hs : n.Suppresses d r t
  · left
    refine ⟨hs, ?_⟩
    simp [record, hs.1, hs.2]
  · right
    have hs' : (r.isCheckable && decide (t ∈ n.ledger d)) = false := by
      simpa [Suppresses] using hs
    cases hf : (n.cell d r).frozen
    · exact Or.inr ⟨hs, rfl, by simp [record, hs', hf]⟩
    · exact Or.inl ⟨hs, rfl, by simp [record, hs', hf, hid]⟩

/-- Recording changes nothing but cells and ledgers. -/
theorem record_frame (n : ClassNode) (d : Direction) (r : Relation) (t : Handle) :
    ∃ cells ledgers, (n.record d r t).1 = { n with cells := cells, ledgers := ledgers } := by
  have hnote : ∃ ledgers, n.note d r t = { n with ledgers := ledgers } := by
    unfold note; split
    · exact ⟨_, rfl⟩
    · exact ⟨n.ledgers, rfl⟩
  obtain ⟨ledgers, hnote⟩ := hnote
  rcases record_cases n d r t with ⟨-, h⟩ | ⟨-, -, h⟩ | ⟨-, -, h⟩ <;> rw [h]
  · exact ⟨n.cells, n.ledgers, rfl⟩
  · exact ⟨n.cells, ledgers, hnote⟩
  · exact ⟨_, ledgers, by rw [hnote]; rfl⟩

@[simp] theorem record_handle : (n.record d r t).1.handle = n.handle := by
  obtain ⟨_, _, h⟩ := record_frame n d r t; rw [h]

@[simp] theorem record_element : (n.record d r t).1.element = n.element := by
  obtain ⟨_, _, h⟩ := record_frame n d r t; rw [h]

@[simp] theorem record_lifecycle : (n.record d r t).1.lifecycle = n.lifecycle := by
  obtain ⟨_, _, h⟩ := record_frame n d r t; rw [h]

@[simp] theorem record_frozen :
    ((n.record d r t).1.cell d' r').frozen = (n.cell d' r').frozen := by
  have hput : ((n.note d r t).put d r t |>.cell d' r').frozen = (n.cell d' r').frozen := by
    rw [cell_put]
    split
    · rename_i h
      rw [h.1, h.2, Cell.frozen_insert, cell_note]
    · rw [cell_note]
  rcases record_cases n d r t with ⟨-, h⟩ | ⟨-, -, h⟩ | ⟨-, -, h⟩ <;> rw [h]
  · rw [cell_note]
  · exact hput

/-- A frozen cell takes nothing. -/
theorem cell_record_of_frozen (hf : (n.cell d' r').frozen = true) :
    (n.record d r t).1.cell d' r' = n.cell d' r' := by
  rcases record_cases n d r t with ⟨-, e⟩ | ⟨-, -, e⟩ | ⟨-, hopen, e⟩ <;> rw [e]
  · exact cell_note
  · rw [cell_put, if_neg, cell_note]
    rintro ⟨rfl, rfl⟩
    rw [hf] at hopen
    cases hopen

/-- Recording in an open cell is no violation. -/
theorem record_eq_none (h : (n.cell d r).frozen = false) : (n.record d r t).2 = none := by
  rcases record_cases n d r t with ⟨-, e⟩ | ⟨-, hf, -⟩ | ⟨-, -, e⟩
  · rw [e]
  · rw [h] at hf; cases hf
  · rw [e]

/-- Also a violation brings no other target into a cell than the one recorded. -/
theorem mem_targets_of_record (h : x ∈ (n.record d r t).1.targets d' r') :
    x ∈ n.targets d' r' ∨ (¬ n.Suppresses d r t ∧ d' = d ∧ r' = r ∧ x = t) := by
  rcases record_cases n d r t with ⟨-, e⟩ | ⟨-, -, e⟩ | ⟨hs, -, e⟩ <;> rw [e] at h
  · exact Or.inl h
  · rw [targets, cell_note] at h; exact Or.inl h
  · rw [mem_targets_put, targets, cell_note] at h
    exact h.imp_right fun hx => ⟨hs, hx⟩

/-- Also a violation takes no target out of a cell. -/
theorem mem_targets_record_of_mem (h : x ∈ n.targets d' r') : x ∈ (n.record d r t).1.targets d' r' := by
  rcases record_cases n d r t with ⟨-, e⟩ | ⟨-, -, e⟩ | ⟨-, -, e⟩ <;> rw [e]
  · exact h
  · rwa [targets, cell_note]
  · exact mem_targets_put.2 (Or.inl (by rwa [targets, cell_note]))

theorem targets_record_ne (h : ¬ (d' = d ∧ r' = r)) : (n.record d r t).1.targets d' r' = n.targets d' r' := by
  rcases record_cases n d r t with ⟨-, e⟩ | ⟨-, -, e⟩ | ⟨-, -, e⟩ <;> rw [e]
  · rw [targets, cell_note, targets]
  · rw [targets, cell_put, if_neg h, cell_note, targets]

/-- A violation leaves the cells alone. -/
theorem targets_record_of_ne_none (h : (n.record d r t).2 ≠ none) :
    (n.record d r t).1.targets d' r' = n.targets d' r' := by
  rcases record_cases n d r t with ⟨-, e⟩ | ⟨-, -, e⟩ | ⟨-, -, e⟩ <;> rw [e] at h ⊢
  · rw [targets, cell_note, targets]
  · exact absurd rfl h

/-- Without a violation the target is in the cell afterwards, unless the ledger keeps it out. -/
theorem mem_targets_record (h : (n.record d r t).2 = none) :
    x ∈ (n.record d r t).1.targets d' r' ↔
      x ∈ n.targets d' r' ∨ (¬ n.Suppresses d r t ∧ d' = d ∧ r' = r ∧ x = t) := by
  rcases record_cases n d r t with ⟨hs, e⟩ | ⟨-, -, e⟩ | ⟨hs, -, e⟩ <;> rw [e] at h ⊢
  · simp [hs]
  · simp at h
  · rw [mem_targets_put, targets, cell_note]
    simp only [hs, not_false_eq_true, true_and]
    rfl

/-- The ledger knows a checkable target afterwards, also where that is a violation. -/
theorem mem_ledger_record :
    x ∈ (n.record d r t).1.ledger d' ↔
      x ∈ n.ledger d' ∨ (d' = d ∧ r.isCheckable = true ∧ x = t) := by
  rcases record_cases n d r t with ⟨hs, e⟩ | ⟨-, -, e⟩ | ⟨-, -, e⟩ <;> rw [e]
  · refine ⟨Or.inl, ?_⟩
    rintro (hx | ⟨rfl, -, rfl⟩)
    exacts [hx, hs.2]
  · exact mem_ledger_note
  · rw [ledger_put, mem_ledger_note]

/-- An order for the handles of a cell, which neither adds nor drops any. -/
def Reorders (order : List Handle → List Handle) : Prop := ∀ hs h, h ∈ order hs ↔ h ∈ hs

variable {order : List Handle → List Handle} {chosen : Slot → Bool} {policy : Policy}

theorem cell_freeze : (n.freeze order chosen).cell d r =
    if chosen (d, r) && !(n.cell d r).frozen then (n.cell d r).freeze order else n.cell d r := by
  simp [cell, freeze]

theorem mem_targets_freeze (ho : Reorders order) :
    x ∈ (n.freeze order chosen).targets d r ↔ x ∈ n.targets d r := by
  rw [targets, cell_freeze]
  split
  · exact ho _ _
  · rfl

theorem mem_targets_finishMembers (ho : Reorders order) :
    x ∈ (n.finishMembers policy order).targets d r ↔ x ∈ n.targets d r :=
  mem_targets_freeze (n := n.sortMembers policy) ho

theorem mem_targets_finishRelations (ho : Reorders order) :
    x ∈ (n.finishRelations order).targets d r ↔ x ∈ n.targets d r :=
  mem_targets_freeze ho

end ClassNode

namespace ClassModel

/-- How many classes take members. -/
def taking (m : ClassModel) : Nat := m.classes.countP fun n => n.lifecycle = .building

/-- How many classes are in a state. -/
def inState (m : ClassModel) (state : Lifecycle) : Nat := m.classes.countP fun n => n.lifecycle = state

variable {m : ClassModel} {h i : Handle}

theorem sortHandles_reorders (m : ClassModel) : ClassNode.Reorders m.sortHandles :=
  fun _ _ => mem_sortBy m.compare

/-- Classes with the same elements come in the same order. -/
theorem sortHandles_congr {m' : ClassModel} (hpolicy : m'.policy = m.policy)
    (helement : ∀ h, (m'.classAt h).element = (m.classAt h).element) : m'.sortHandles = m.sortHandles := by
  have hcompare : m'.compare = m.compare := by
    funext a b
    rw [compare, compare, ClassNode.attributes, ClassNode.attributes, helement, helement, hpolicy]
    rfl
  funext hs
  rw [sortHandles, sortHandles, hcompare]

@[simp] theorem size_modify (f : ClassNode → ClassNode) : (m.modify h f).size = m.size := by
  simp [size, modify]

theorem classAt_modify (hh : h < m.size) (f : ClassNode → ClassNode) (i : Handle) :
    (m.modify h f).classAt i = if i = h then f (m.classAt h) else m.classAt i := by
  unfold size at hh
  by_cases hi : i = h
  · subst hi
    simp [classAt, modify, List.getD, hh]
  · simp [classAt, modify, List.getD, hi, Ne.symm hi]

@[simp] theorem size_extend (e : Element) (ps : List TypeRef) : (m.extend e ps).size = m.size + 1 := by
  simp [size, extend, register]

theorem classAt_extend (e : Element) (ps : List TypeRef) (hi : i < m.size) :
    (m.extend e ps).classAt i = m.classAt i := by
  unfold size at hi
  simp [classAt, extend, register, List.getD, List.getElem?_append_left hi]

theorem classAt_extend_size (e : Element) (ps : List TypeRef) :
    (m.extend e ps).classAt m.size = { handle := m.size, element := e, typeParameters := ps } := by
  simp [classAt, extend, register, List.getD, size]

theorem handle?_extend (e : Element) (ps : List TypeRef) (id : String) :
    (m.extend e ps).handle? id = if id = e.id then some m.size else m.handle? id := by
  rw [handle?, extend, register, List.lookup_cons]
  by_cases hid : id = e.id
  · simp [hid]
  · rw [if_neg hid, beq_false_of_ne hid]
    rfl

theorem classAt_of_size_le (hi : m.size ≤ i) :
    m.classAt i =
      { handle := i, element := { attributes := { id := "", name := "", kind := .classType } } } := by
  unfold size at hi
  simp [classAt, List.getD, List.getElem?_eq_none hi]

@[simp] theorem targets_empty (policy : Policy) (h : Handle) (d : Direction) (r : Relation) :
    ((empty policy).classAt h).targets d r = [] := by
  rw [classAt_of_size_le (Nat.zero_le h)]
  simp [ClassNode.targets, ClassNode.cell]

@[simp] theorem ledger_empty (policy : Policy) (h : Handle) (d : Direction) :
    ((empty policy).classAt h).ledger d = [] := by
  rw [classAt_of_size_le (Nat.zero_le h)]
  simp [ClassNode.ledger]

theorem getElem?_classes (hh : h < m.size) : m.classes[h]? = some (m.classAt h) := by
  unfold size at hh
  simp [classAt, List.getD, List.getElem?_eq_getElem hh]

/-- A class that is replaced by what it changes to changes so. -/
theorem modify_fun_classAt (hh : h < m.size) (f : ClassNode → ClassNode) :
    (m.modify h fun _ => f (m.classAt h)) = m.modify h f := by
  have hat : m.classes[h]? = some (m.classAt h) := getElem?_classes hh
  rw [modify, modify]
  congr 1
  refine List.ext_getElem? fun i => ?_
  rw [List.getElem?_modify, List.getElem?_modify]
  by_cases hi : h = i
  · subst hi
    simp [hat]
  · simp [hi]

theorem modify_classAt (hh : h < m.size) : (m.modify h fun _ => m.classAt h) = m := by
  have hid : m.classes.modify h (fun n => n) = m.classes := List.modify_id h m.classes
  rw [modify_fun_classAt hh fun n => n, modify, hid]

theorem mem_classes {n : ClassNode} : n ∈ m.classes ↔ ∃ h < m.size, m.classAt h = n := by
  rw [List.mem_iff_getElem?]
  constructor
  · rintro ⟨h, hn⟩
    have hh : h < m.size := (List.getElem?_eq_some_iff.1 hn).1
    rw [getElem?_classes hh] at hn
    exact ⟨h, hh, Option.some.inj hn⟩
  · rintro ⟨h, hh, rfl⟩
    exact ⟨h, getElem?_classes hh⟩

/-- The classes that take members are counted anew when one class changes. -/
theorem taking_modify (hh : h < m.size) (f : ClassNode → ClassNode) :
    (m.modify h f).taking + (if (m.classAt h).lifecycle = .building then 1 else 0) =
      m.taking + if (f (m.classAt h)).lifecycle = .building then 1 else 0 := by
  obtain ⟨before, n, after, hsplit, hlength, hmodify⟩ := List.exists_of_modify f hh
  have hat : m.classAt h = n := by
    have := getElem?_classes hh
    rw [hsplit, ← hlength, List.getElem?_append_right (Nat.le_refl _), Nat.sub_self] at this
    rw [← hlength]
    exact (Option.some.inj this).symm
  rw [taking, taking, modify, hmodify, hsplit, hat]
  simp only [List.countP_append, List.countP_cons, decide_eq_true_eq]
  omega

theorem length_handlesIn (m : ClassModel) (state : Lifecycle) : (m.handlesIn state).length = m.inState state := by
  rw [handlesIn, List.length_map, inState, List.countP_eq_length_filter]

/-- A cell or ledger that holds anything belongs to a class of the model. -/
theorem lt_of_mem_targets {d : Direction} {r : Relation} {x : Handle}
    (hx : x ∈ (m.classAt h).targets d r) : h < m.size := by
  by_contra hh
  rw [classAt_of_size_le (Nat.le_of_not_lt hh)] at hx
  simp [ClassNode.targets, ClassNode.cell] at hx

theorem record_eq (m : ClassModel) (owner : Handle) (d : Direction) (r : Relation) (t : Handle) :
    m.record owner d r t = (m.modify owner fun _ => ((m.classAt owner).record d r t).1,
      ((m.classAt owner).record d r t).2) := rfl

@[simp] theorem size_record (owner : Handle) (d : Direction) (r : Relation) (t : Handle) :
    (m.record owner d r t).1.size = m.size := size_modify _

theorem addMember_cases (m : ClassModel) (h : Handle) (x : Element) :
    ((m.classAt h).lifecycle = .building ∧
      m.addMember h x = (m.modify h fun _ => (m.classAt h).append x, none)) ∨
    ((m.classAt h).lifecycle ≠ .building ∧
      m.addMember h x = (m, some (.lateMember x.name (m.classAt h).id))) := by
  by_cases hb : (m.classAt h).lifecycle = .building
  · exact Or.inl ⟨hb, by simp [addMember, ClassNode.addMember, hb]⟩
  · exact Or.inr ⟨hb, by simp [addMember, ClassNode.addMember, hb]⟩

theorem finishMembers_eq_ok_iff {m' : ClassModel} : m.finishMembers h = .ok m' ↔
    h < m.size ∧ (m.classAt h).lifecycle = .building ∧
      m' = { m.modify h (fun n => n.finishMembers m.policy m.sortHandles) with
        pending := m.pending - 1 } := by
  by_cases hh : h < m.size
  · unfold finishMembers
    rw [getElem?_classes hh]
    by_cases hb : (m.classAt h).lifecycle = .building
    · simp [hh, hb, eq_comm]
    · simp [hb]
  · have hnone : m.classes[h]? = none := List.getElem?_eq_none (Nat.le_of_not_lt hh)
    simp [finishMembers, hnone, hh]

theorem finishRelations_eq_ok_iff {m' : ClassModel} : m.finishRelations h = .ok m' ↔
    h < m.size ∧ (m.classAt h).lifecycle = .membersFinalized ∧ m.pending = 0 ∧
      m' = m.modify h fun n => n.finishRelations m.sortHandles := by
  by_cases hh : h < m.size
  · unfold finishRelations
    rw [getElem?_classes hh]
    dsimp only
    cases hl : (m.classAt h).lifecycle with
    | building => simp
    | relationsFinalized => simp
    | membersFinalized => by_cases hp : m.pending = 0 <;> simp [hh, hp, eq_comm]
  · have hnone : m.classes[h]? = none := List.getElem?_eq_none (Nat.le_of_not_lt hh)
    simp [finishRelations, hnone, hh]

end ClassModel

end ClassAtlas
