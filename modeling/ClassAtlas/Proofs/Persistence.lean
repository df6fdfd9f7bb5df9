import ClassAtlas.Proofs.StableSort
import ClassAtlas.Proofs.Stages

/-! Nothing that a model shows is lost or rewritten. A step takes each class over with its handle, element and type
parameters; ledgers and open cells grow at their ends, a cell that freezes is put in order once and stays as it is, and
so are the members of each kind (`run_lasting`). Finishing many classes is no exception, for each of them changes once
and compares with the others as before. -/

namespace ClassAtlas

/-- How many stages a class has behind it. -/
def Lifecycle.stage : Lifecycle → Nat
  | .building => 0
  | .membersFinalized => 1
  | .relationsFinalized => 2

namespace ClassNode

variable {n : ClassNode} {d d' : Direction} {r r' : Relation} {t : Handle} {kind : ElementKind}

theorem membersOf_append (x : Element) : (n.append x).membersOf kind =
    if kind = x.kind then n.membersOf kind ++ [x] else n.membersOf kind := by
  rw [membersOf, append, EnumMap.get_modify]
  split
  · rename_i hk
    rw [hk, membersOf, Option.getD_some]
  · rfl

theorem membersOf_sortMembers (policy : Policy) : (n.sortMembers policy).membersOf kind =
    sortBy (fun a b => policy.compare a.attributes b.attributes) (n.membersOf kind) := by
  rw [membersOf, sortMembers, sortedMembers, EnumMap.get_mapWith, membersOf]
  cases n.members.get kind with
  | some list => rfl
  | none =>
    dsimp only
    split <;> rfl

theorem membersOf_record : (n.record d r t).1.membersOf kind = n.membersOf kind := by
  obtain ⟨_, _, h⟩ := record_frame n d r t
  rw [h]
  rfl

theorem prefix_ledger_note : n.ledger d' <+: (n.note d r t).ledger d' := by
  unfold note
  split
  · rw [ClassNode.ledger, ClassNode.ledger, EnumMap.get_modify]
    split
    · rename_i hd
      rw [hd]
      exact List.prefix_append _ _
    · exact List.prefix_refl _
  · exact List.prefix_refl _

theorem prefix_ledger_record : n.ledger d' <+: (n.record d r t).1.ledger d' := by
  rcases record_cases n d r t with ⟨-, e⟩ | ⟨-, -, e⟩ | ⟨-, -, e⟩
  · exact e ▸ List.prefix_refl _
  · exact e ▸ prefix_ledger_note
  · rw [e, ledger_put]
    exact prefix_ledger_note

/-- Recording leaves a cell as it is or inserts a target while it is open. -/
theorem cell_record_cases : (n.record d r t).1.cell d' r' = n.cell d' r' ∨
    ((n.cell d' r').frozen = false ∧ (n.record d r t).1.cell d' r' = (n.cell d' r').insert t) := by
  rcases record_cases n d r t with ⟨-, e⟩ | ⟨-, -, e⟩ | ⟨-, hopen, e⟩ <;> rw [e]
  · exact Or.inl rfl
  · exact Or.inl cell_note
  · rw [cell_put, cell_note, cell_note]
    split
    · rename_i h
      obtain ⟨rfl, rfl⟩ := h
      exact Or.inr ⟨hopen, rfl⟩
    · exact Or.inl rfl

end ClassNode

namespace ClassModel

open ClassNode

variable {m m1 m' : ClassModel} {n n' : ClassNode} {v : Option Violation} {h i : Handle} {d : Direction} {r : Relation}

/-- Compares members by the policy of the model. -/
def compareMembers (m : ClassModel) (a b : Element) : Ordering := m.policy.compare a.attributes b.attributes

/-- What becomes of a class of a model in one step. -/
structure Keeps (m : ClassModel) (n n' : ClassNode) : Prop where
  handle : n'.handle = n.handle
  element : n'.element = n.element
  typeParameters : n'.typeParameters = n.typeParameters
  lifecycle : n.lifecycle.stage ≤ n'.lifecycle.stage
  ledger : ∀ d, n.ledger d <+: n'.ledger d
  frozen : ∀ d r, (n.cell d r).frozen = true → n'.cell d r = n.cell d r
  grown : ∀ d r, (n.cell d r).frozen = false → (n'.cell d r).frozen = false → n.targets d r <+: n'.targets d r
  sorted : ∀ d r, (n.cell d r).frozen = false → (n'.cell d r).frozen = true →
    StablySorted m.compare (n.targets d r) (n'.targets d r)
  members : ∀ kind, n'.membersOf kind = n.membersOf kind ∨
    (n.lifecycle = .building ∧ n'.lifecycle = .building ∧
      ∃ x : Element, x.kind = kind ∧ n'.membersOf kind = n.membersOf kind ++ [x]) ∨
    (n.lifecycle = .building ∧ n'.lifecycle = .membersFinalized ∧
      StablySorted m.compareMembers (n.membersOf kind) (n'.membersOf kind))

theorem Keeps.refl (m : ClassModel) (n : ClassNode) : m.Keeps n n where
  handle := rfl
  element := rfl
  typeParameters := rfl
  lifecycle := Nat.le_refl _
  ledger _ := List.prefix_refl _
  frozen _ _ _ := rfl
  grown _ _ _ _ := List.prefix_refl _
  sorted _ _ hopen hfrozen := by
    rw [hopen] at hfrozen
    cases hfrozen
  members _ := Or.inl rfl

/-- A cell stays as it is, or while it is open it takes a target or freezes. -/
theorem Change.cell_cases (hchange : m.Change n n' v) (d : Direction) (r : Relation) :
    n'.cell d r = n.cell d r ∨ ((n.cell d r).frozen = false ∧
      ((∃ t, n'.cell d r = (n.cell d r).insert t) ∨ n'.cell d r = (n.cell d r).freeze m.sortHandles)) := by
  rcases hchange.cells_cases with ⟨_, _, t, rfl, -⟩ | ⟨-, hcell⟩
  · rcases cell_record_cases (n := n) (t := t) with e | ⟨hopen, e⟩
    · exact Or.inl e
    · exact Or.inr ⟨hopen, Or.inl ⟨t, e⟩⟩
  · rcases hcell d r with e | ⟨hopen, e⟩
    · exact Or.inl e
    · exact Or.inr ⟨hopen, Or.inr e⟩

theorem Change.members_cases (hchange : m.Change n n' v) (kind : ElementKind) :
    n'.membersOf kind = n.membersOf kind ∨
    (n.lifecycle = .building ∧ n'.lifecycle = .building ∧
      ∃ x : Element, x.kind = kind ∧ n'.membersOf kind = n.membersOf kind ++ [x]) ∨
    (n.lifecycle = .building ∧ n'.lifecycle = .membersFinalized ∧
      StablySorted m.compareMembers (n.membersOf kind) (n'.membersOf kind)) := by
  cases hchange with
  | append x taking =>
    rw [membersOf_append]
    split
    · rename_i hk
      exact Or.inr (Or.inl ⟨taking, taking, x, hk.symm, rfl⟩)
    · exact Or.inl rfl
  | record d r t => exact Or.inl membersOf_record
  | finishMembers taking =>
    refine Or.inr (Or.inr ⟨taking, rfl, ?_⟩)
    rw [show (n.finishMembers m.policy m.sortHandles).membersOf kind = (n.sortMembers m.policy).membersOf kind from rfl,
      membersOf_sortMembers]
    exact stablySorted_sortBy m.compareMembers _
  | finishRelations _ => exact Or.inl rfl

theorem Change.keeps (hchange : m.Change n n' v) : m.Keeps n n' where
  handle := by
    cases hchange with
    | record d r t => exact record_handle
    | _ => rfl
  element := hchange.element
  typeParameters := by
    cases hchange with
    | record d r t =>
      obtain ⟨_, _, e⟩ := record_frame n d r t
      rw [e]
    | _ => rfl
  lifecycle := by
    cases hchange with
    | append x _ => exact Nat.le_refl _
    | record d r t => exact Nat.le_of_eq (congrArg Lifecycle.stage record_lifecycle.symm)
    | finishMembers taking => rw [taking]; exact Nat.zero_le _
    | finishRelations finished => rw [finished]; exact Nat.le_succ 1
  ledger d := by
    rcases hchange.cells_cases with ⟨_, _, _, rfl, -⟩ | ⟨hledger, -⟩
    · exact prefix_ledger_record
    · exact hledger d ▸ List.prefix_refl _
  frozen d r hfrozen := by
    rcases hchange.cell_cases d r with e | ⟨hopen, -⟩
    · exact e
    · rw [hopen] at hfrozen
      cases hfrozen
  grown d r _ hopen' := by
    rcases hchange.cell_cases d r with e | ⟨-, ⟨t, e⟩ | e⟩
    · unfold targets
      exact e ▸ List.prefix_refl _
    · rw [targets, targets, e]
      exact Cell.prefix_insert _ t
    · rw [e] at hopen'
      cases hopen'
  sorted d r hopen hfrozen := by
    rcases hchange.cell_cases d r with e | ⟨-, ⟨t, e⟩ | e⟩
    · rw [e, hopen] at hfrozen
      cases hfrozen
    · rw [e, Cell.frozen_insert, hopen] at hfrozen
      cases hfrozen
    · rw [targets, targets, e]
      exact stablySorted_sortBy m.compare _
  members := hchange.members_cases

theorem Move.keeps (hmove : Move m m' v) (hi : i < m.size) : m.Keeps (m.classAt i) (m'.classAt i) := by
  rcases hmove.moved i with e | ⟨rfl, -⟩ | ⟨w, -, hchange⟩
  · rw [e]
    exact Keeps.refl m _
  · exact absurd hi (Nat.lt_irrefl _)
  · exact hchange.keeps

theorem Move.size_le (hmove : Move m m' v) : m.size ≤ m'.size := by
  rcases hmove.lifecycle_cases with ⟨e, ps, rfl⟩ | ⟨hsize, -⟩ | ⟨_, hfin⟩ | ⟨_, -, hfin⟩
  · rw [size_extend]
    exact Nat.le_succ _
  · exact Nat.le_of_eq hsize.symm
  · exact Nat.le_of_eq hfin.size.symm
  · exact Nat.le_of_eq hfin.size.symm

/-- Classes of a model compare after a move as they did before it. -/
theorem Move.compare_eq (hmove : Move m m' v) {a b : Handle} (ha : a < m.size) (hb : b < m.size) :
    m'.compare a b = m.compare a b := by
  rw [compare, compare, hmove.policy, attributes, attributes, attributes, attributes, hmove.element ha,
    hmove.element hb]

/-- A later model that compares alike keeps the class for the earlier one too. -/
theorem Keeps.of_move (hkeeps : m1.Keeps n n') (hmove : Move m m1 v)
    (hinside : ∀ d r, ∀ x ∈ n.targets d r, x < m.size) : m.Keeps n n' where
  handle := hkeeps.handle
  element := hkeeps.element
  typeParameters := hkeeps.typeParameters
  lifecycle := hkeeps.lifecycle
  ledger := hkeeps.ledger
  frozen := hkeeps.frozen
  grown := hkeeps.grown
  sorted d r hopen hfrozen := (hkeeps.sorted d r hopen hfrozen).congr fun a ha b hb =>
    hmove.compare_eq (hinside d r a ha) (hinside d r b hb)
  members kind := by
    have hcompare : m1.compareMembers = m.compareMembers := by
      funext a b
      rw [compareMembers, compareMembers, hmove.policy]
    rw [← hcompare]
    exact hkeeps.members kind

/-- What was there before a step is there after it. -/
structure Lasting (m m' : ClassModel) : Prop where
  size : m.size ≤ m'.size
  keeps : ∀ h < m.size, m.Keeps (m.classAt h) (m'.classAt h)

theorem Lasting.refl (m : ClassModel) : Lasting m m := ⟨Nat.le_refl _, fun _ _ => Keeps.refl m _⟩

theorem Move.lasting (hmove : Move m m' v) : Lasting m m' := ⟨hmove.size_le, fun _ => hmove.keeps⟩

/-- Classes that are finished one after the other change once each: the turn of a class leaves all others as they
are, and none has two turns. -/
theorem finishEach_lasting {finish : ClassModel → Handle → Except Refusal ClassModel}
    (hmove : ∀ m h m', finish m h = .ok m' → Move m m' none ∧ ∀ i, i ≠ h → m'.classAt i = m.classAt i)
    (hm : WellFormed m) {hs : List Handle} (hnodup : hs.Nodup) :
    Lasting m (m.finishEach finish hs).1 ∧ ∀ i ∉ hs, (m.finishEach finish hs).1.classAt i = m.classAt i := by
  induction hs generalizing m with
  | nil => exact ⟨Lasting.refl m, fun _ _ => rfl⟩
  | cons h hs ih =>
    rw [List.nodup_cons] at hnodup
    unfold finishEach
    cases hfin : finish m h with
    | error r => exact ⟨Lasting.refl m, fun _ _ => rfl⟩
    | ok m1 =>
      obtain ⟨hmove1, hothers⟩ := hmove m h m1 hfin
      obtain ⟨hlasting, hrest⟩ := ih (hm.move hmove1) hnodup.2
      refine ⟨⟨Nat.le_trans hmove1.size_le hlasting.size, fun i hi => ?_⟩, fun i hi => ?_⟩
      · by_cases hih : i = h
        · subst hih
          rw [hrest i hnodup.1]
          exact hmove1.keeps hi
        · have hkeeps := hlasting.keeps i (Nat.lt_of_lt_of_le hi hmove1.size_le)
          rw [hothers i hih] at hkeeps
          exact hkeeps.of_move hmove1 fun d r x hx => (hm.targets i d r x hx).1
      · rw [List.mem_cons, not_or] at hi
        exact (hrest i hi.2).trans (hothers i hi.1)

theorem finishMembers_move (hfin : m.finishMembers h = .ok m') :
    Move m m' none ∧ ∀ i, i ≠ h → m'.classAt i = m.classAt i := by
  refine ⟨Move.finishMembers hfin, fun i hi => ?_⟩
  obtain ⟨hh, -, rfl⟩ := finishMembers_eq_ok_iff.1 hfin
  change (m.modify h _).classAt i = _
  rw [classAt_modify hh, if_neg hi]

theorem finishRelations_move (hfin : m.finishRelations h = .ok m') :
    Move m m' none ∧ ∀ i, i ≠ h → m'.classAt i = m.classAt i := by
  refine ⟨Move.finishRelations hfin, fun i hi => ?_⟩
  obtain ⟨hh, -, -, rfl⟩ := finishRelations_eq_ok_iff.1 hfin
  rw [classAt_modify hh, if_neg hi]

theorem Stride.lasting (hstride : Stride m m' v) (hm : WellFormed m) : Lasting m m' := by
  cases hstride with
  | stay => exact Lasting.refl m
  | move hmove => exact hmove.lasting
  | finishMembers =>
    exact (finishEach_lasting (fun _ _ _ => finishMembers_move) hm (nodup_handlesIn hm .building)).1
  | finishRelations =>
    exact (finishEach_lasting (fun _ _ _ => finishRelations_move) hm (nodup_handlesIn hm .membersFinalized)).1

/-- Edges, notes of the ledgers and members of a class that are still there. -/
structure Visible (n n' : ClassNode) : Prop where
  targets : ∀ d r, n.targets d r ⊆ n'.targets d r
  ledger : ∀ d, n.ledger d ⊆ n'.ledger d
  members : ∀ kind, n.membersOf kind ⊆ n'.membersOf kind

theorem Keeps.visible (hkeeps : m.Keeps n n') : Visible n n' where
  targets d r := by
    cases hf : (n.cell d r).frozen with
    | true =>
      rw [targets, targets, hkeeps.frozen d r hf]
      exact List.Subset.refl _
    | false =>
      cases hf' : (n'.cell d r).frozen with
      | true => exact (hkeeps.sorted d r hf hf').perm.symm.subset
      | false => exact (hkeeps.grown d r hf hf').subset
  ledger d := (hkeeps.ledger d).subset
  members kind := by
    rcases hkeeps.members kind with e | ⟨-, -, x, -, e⟩ | ⟨-, -, hs⟩
    · rw [e]
      exact List.Subset.refl _
    · rw [e]
      exact List.subset_append_left _ _
    · exact hs.perm.symm.subset

theorem Moves.visible (hmoves : Moves m m') : m.size ≤ m'.size ∧ ∀ h < m.size, Visible (m.classAt h) (m'.classAt h) := by
  refine hmoves.invariant
    (P := fun m' => m.size ≤ m'.size ∧ ∀ h < m.size, Visible (m.classAt h) (m'.classAt h)) ?_
    ⟨Nat.le_refl _, fun h _ => (Keeps.refl m (m.classAt h)).visible⟩
  rintro m1 m2 v hmove ⟨hsize, hvisible⟩
  refine ⟨Nat.le_trans hsize hmove.size_le, fun h hh => ?_⟩
  have hold := hvisible h hh
  have hnew := (hmove.keeps (Nat.lt_of_lt_of_le hh hsize)).visible
  exact ⟨fun d r => List.Subset.trans (hold.targets d r) (hnew.targets d r),
    fun d => List.Subset.trans (hold.ledger d) (hnew.ledger d),
    fun kind => List.Subset.trans (hold.members kind) (hnew.members kind)⟩

/-- Every step, a refused one or a violation too, from any state of any run; and what is visible there is so in every
later state. -/
theorem run_lasting (policy : Policy) (ops : List Operation) :
    (∀ op, Lasting ((empty policy).run ops).1 (((empty policy).run ops).1.step op).1) ∧
    ∀ later h, h < ((empty policy).run ops).1.size →
      Visible (((empty policy).run ops).1.classAt h) ((((empty policy).run ops).1.run later).1.classAt h) := by
  have hm := run_wellFormed policy ops
  generalize ((empty policy).run ops).1 = m at hm
  refine ⟨fun op => ?_, fun later h hh => (run_moves m later).visible.2 h hh⟩
  obtain ⟨v, hstride, -⟩ := step_stride m op
  exact hstride.lasting hm

end ClassModel

end ClassAtlas
