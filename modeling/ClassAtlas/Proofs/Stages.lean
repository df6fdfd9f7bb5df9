import ClassAtlas.Proofs.Changes
import ClassAtlas.Proofs.Finishing

/-! How far a class is shows in its lifecycle, in its frozen cells and, over all classes, in the number of those
that take members. The three agree in every state of every run, also after refusals and violations, and whether
a class can be finished is read off the lifecycles alone (`run_ordered`). -/

namespace ClassAtlas

namespace ClassNode

variable {n n' : ClassNode} {d : Direction} {r : Relation} {order : List Handle → List Handle}
  {chosen : Slot → Bool} {v : Option Violation}

theorem frozen_freeze :
    ((n.freeze order chosen).cell d r).frozen = (chosen (d, r) || (n.cell d r).frozen) := by
  rw [cell_freeze]
  cases hc : chosen (d, r) <;> cases hf : (n.cell d r).frozen <;> simp [hf, Cell.freeze]

/-- The lifecycle of a class tells which of its cells are frozen. -/
structure Staged (n : ClassNode) : Prop where
  outbound : ∀ r, (n.cell .outbound r).frozen = true ↔ n.lifecycle = .relationsFinalized ∨
    (n.lifecycle = .membersFinalized ∧ (r = .superClass ∨ r = .superInterface ∨ r = .innerClass))
  inbound : ∀ r, (n.cell .inbound r).frozen = true ↔ r = .innerClass ∧ n.lifecycle = .relationsFinalized

theorem staged_new (h : Handle) (e : Element) (ps : List TypeRef) :
    Staged { handle := h, element := e, typeParameters := ps } := by
  constructor <;> intro r <;> simp [cell]

theorem Staged.finishMembers (hn : n.Staged) (hb : n.lifecycle = .building) (policy : Policy) :
    (n.finishMembers policy order).Staged := by
  have hcell (d : Direction) (r : Relation) : ((n.finishMembers policy order).cell d r).frozen =
      (freezesWithMembers (d, r) || (n.cell d r).frozen) :=
    frozen_freeze (n := n.sortMembers policy)
  have hout (r : Relation) : (n.cell .outbound r).frozen = false := by
    rw [← Bool.not_eq_true, hn.outbound, hb]
    simp
  have hin (r : Relation) : (n.cell .inbound r).frozen = false := by
    rw [← Bool.not_eq_true, hn.inbound, hb]
    simp
  constructor <;> intro r
  · rw [hcell, hout]
    simp [freezesWithMembers, Relation.frozenWithMembers, ClassNode.finishMembers]
  · rw [hcell, hin]
    simp [freezesWithMembers, ClassNode.finishMembers]

theorem Staged.finishRelations (hn : n.Staged) (hl : n.lifecycle = .membersFinalized) :
    (n.finishRelations order).Staged := by
  have hcell (d : Direction) (r : Relation) : ((n.finishRelations order).cell d r).frozen =
      (freezesWithRelations (d, r) || (n.cell d r).frozen) := frozen_freeze
  have hin (r : Relation) : (n.cell .inbound r).frozen = false := by
    rw [← Bool.not_eq_true, hn.inbound, hl]
    simp
  constructor <;> intro r
  · rw [hcell]
    simp [freezesWithRelations, ClassNode.finishRelations]
  · rw [hcell, hin]
    simp [freezesWithRelations, ClassNode.finishRelations]

theorem Staged.change {m : ClassModel} (hn : n.Staged) (hchange : m.Change n n' v) : n'.Staged := by
  cases hchange with
  | append x _ => exact ⟨hn.outbound, hn.inbound⟩
  | record d r t =>
    constructor <;> intro r' <;> rw [record_frozen, record_lifecycle]
    exacts [hn.outbound r', hn.inbound r']
  | finishMembers taking => exact hn.finishMembers taking m.policy
  | finishRelations finished => exact hn.finishRelations finished

end ClassNode

namespace ClassModel

variable {m m' : ClassModel} {h : Handle} {v : Option Violation}

theorem Moves.staged {policy : Policy} (hmoves : Moves (empty policy) m) (h : Handle) : (m.classAt h).Staged :=
  hmoves.nodes ClassNode.staged_new (fun hchange hn => hn.change hchange) h

theorem inState_eq_zero_iff {state : Lifecycle} :
    m.inState state = 0 ↔ ∀ h < m.size, (m.classAt h).lifecycle ≠ state := by
  simp only [inState, List.countP_eq_zero, decide_eq_true_eq]
  constructor
  · intro hno h hh
    exact hno _ (mem_classes.2 ⟨h, hh, rfl⟩)
  · intro hno n hn
    obtain ⟨h, hh, rfl⟩ := mem_classes.1 hn
    exact hno h hh

theorem taking_eq_zero_iff : m.taking = 0 ↔ ∀ h < m.size, (m.classAt h).lifecycle ≠ .building := inState_eq_zero_iff

/-- A class that takes members is counted. -/
theorem WellFormed.pending_pos (hm : WellFormed m) (hh : h < m.size) (taking : (m.classAt h).lifecycle = .building) :
    0 < m.pending := by
  rw [hm.pending]
  exact Nat.pos_of_ne_zero fun hzero => taking_eq_zero_iff.1 hzero h hh taking

theorem lifecycle_record {owner t : Handle} (ho : owner < m.size) (d : Direction) (r : Relation) (i : Handle) :
    ((m.record owner d r t).1.classAt i).lifecycle = (m.classAt i).lifecycle := by
  rw [record_eq, classAt_modify ho]
  split
  · rename_i e
    rw [e, ClassNode.record_lifecycle]
  · rfl

theorem lifecycle_link {l : Link} (hl : l.Fits m) (i : Handle) :
    (m.link l).1.size = m.size ∧ ((m.link l).1.classAt i).lifecycle = (m.classAt i).lifecycle := by
  rcases link_cases m l with ⟨-, e⟩ | ⟨-, e⟩ <;> rw [e]
  · exact ⟨size_record .., lifecycle_record hl.source_lt ..⟩
  · rw [lifecycle_record (target_lt_record hl), lifecycle_record hl.source_lt, size_record, size_record]
    exact ⟨rfl, rfl⟩

/-- What a move does to the lifecycles: a class starts, none goes on, or one goes on by a stage. -/
theorem Move.lifecycle_cases (hmove : Move m m' v) :
    (∃ e ps, m' = m.extend e ps) ∨
    (m'.size = m.size ∧ ∀ i, (m'.classAt i).lifecycle = (m.classAt i).lifecycle) ∨
    (∃ h, Finished m m' [h] .membersFinalized) ∨
    ∃ h, m.pending = 0 ∧ Finished m m' [h] .relationsFinalized := by
  cases hmove with
  | extend e ps _ => exact Or.inl ⟨e, ps, rfl⟩
  | @member h x _ _ inside added =>
    right; left
    rcases addMember_cases m h x with ⟨-, e⟩ | ⟨-, e⟩ <;> rw [e] at added <;>
      obtain ⟨rfl, -⟩ := Prod.mk.inj added
    · refine ⟨size_modify _, fun i => ?_⟩
      rw [classAt_modify inside]
      split
      · rename_i e
        rw [e]
        rfl
      · rfl
    · exact ⟨rfl, fun _ => rfl⟩
  | link fits linked =>
    right; left
    have hlink := lifecycle_link fits
    rw [linked] at hlink
    exact ⟨(hlink 0).1, fun i => (hlink i).2⟩
  | @finishMembers h _ finished =>
    right; right; left
    obtain ⟨hh, -, rfl⟩ := finishMembers_eq_ok_iff.1 finished
    have hfin : Finished m (m.modify h fun n => n.finishMembers m.policy m.sortHandles) [h]
        .membersFinalized := finished_modify hh fun _ => rfl
    exact ⟨h, hfin.size, hfin.lifecycle⟩
  | @finishRelations h _ finished =>
    right; right; right
    obtain ⟨hh, -, hp, rfl⟩ := finishRelations_eq_ok_iff.1 finished
    exact ⟨h, hp, finished_modify hh fun _ => rfl⟩

/-- A class that takes members came after every class whose relations are finished. -/
def Barrier (m : ClassModel) : Prop :=
  ∀ i < m.size, ∀ j < m.size, (m.classAt i).lifecycle = .building →
    (m.classAt j).lifecycle = .relationsFinalized → j < i

theorem Barrier.move (hb : Barrier m) (hm : WellFormed m) (hmove : Move m m' v) : Barrier m' := by
  intro i hi j hj hbuilding hfinal
  rcases hmove.lifecycle_cases with ⟨e, ps, rfl⟩ | ⟨hsize, hlife⟩ | ⟨h, hsize, hlife⟩ | ⟨h, hp, hsize, hlife⟩
  · rw [size_extend] at hi hj
    have hjm : j ≠ m.size := by
      rintro rfl
      rw [classAt_extend_size] at hfinal
      cases hfinal
    by_cases him : i = m.size
    · omega
    · have hi : i < m.size := by omega
      have hj : j < m.size := by omega
      rw [classAt_extend e ps hi] at hbuilding
      rw [classAt_extend e ps hj] at hfinal
      exact hb i hi j hj hbuilding hfinal
  · rw [hlife] at hbuilding hfinal
    exact hb i (hsize ▸ hi) j (hsize ▸ hj) hbuilding hfinal
  · rw [hlife] at hbuilding hfinal
    split at hbuilding
    · cases hbuilding
    · split at hfinal
      · cases hfinal
      · exact hb i (hsize ▸ hi) j (hsize ▸ hj) hbuilding hfinal
  · -- relations are finished only where no class takes members
    have hno := taking_eq_zero_iff.1 (hm.pending.symm.trans hp)
    rw [hlife] at hbuilding
    split at hbuilding
    · cases hbuilding
    · exact absurd hbuilding (hno i (hsize ▸ hi))

theorem run_barrier (policy : Policy) (ops : List Operation) : Barrier ((empty policy).run ops).1 := by
  have hrun := (run_moves (empty policy) ops).invariant (P := fun m => WellFormed m ∧ Barrier m)
    (fun m m' v hmove hm => ⟨hm.1.move hmove, hm.2.move hm.1 hmove⟩)
    ⟨wellFormed_empty policy, fun i hi => absurd hi (Nat.not_lt_zero i)⟩
  exact hrun.2

/-- A refused operation leaves the model as it was. Finishing many classes is refused at the first one or not
at all, for what is missing there is missing for all of them. -/
theorem step_refused (hm : WellFormed m) {op : Operation} {reason : Refusal}
    (hop : (m.step op).2 = .refused reason) : (m.step op).1 = m := by
  have hkeeping (result : Except Refusal ClassModel) (h : (m.keeping result).2 = .refused reason) :
      (m.keeping result).1 = m := by
    cases result with
    | error _ => rfl
    | ok _ => cases h
  have hviolation (v : Option Violation) : Reply.ofViolation v ≠ .refused reason := by
    cases v <;> simp [Reply.ofViolation]
  unfold step at hop ⊢
  cases hfind : op.handles.find? fun h => m.size ≤ h with
  | some h => rfl
  | none =>
    rw [hfind] at hop
    dsimp only at hop ⊢
    cases op with
    | addClass e ps =>
      simp only [perform] at hop ⊢
      cases hadd : m.addClass e ps with
      | error _ => rfl
      | ok _ => rw [hadd] at hop; cases hop
    | addMember h x => exact absurd hop (hviolation _)
    | addRelation s r t => exact absurd hop (hviolation _)
    | addSuperInterface s t => exact absurd hop (hviolation _)
    | finishMembers h => exact hkeeping _ hop
    | finishRelations h => exact hkeeping _ hop
    | finishAllMembers =>
      obtain ⟨m', he, -⟩ := finishAllMembers_spec hm
      simp only [perform, he] at hop
      cases hop
    | finishAllRelations =>
      simp only [perform] at hop ⊢
      rcases finishAllRelations_cases hm with ⟨-, m', he, -⟩ | ⟨-, h, hs, -, he⟩
      · rw [he] at hop
        cases hop
      · rw [he]

/-- The stages of all classes, and what can be finished when. -/
structure Ordered (m : ClassModel) : Prop where
  pending : m.pending = m.taking
  counted : ∀ h m', m.finishMembers h = .ok m' → m.pending = m'.pending + 1
  staged : ∀ h < m.size, (m.classAt h).Staged
  barrier : Barrier m
  finishMembers : ∀ h, (∃ m', m.finishMembers h = .ok m') ↔
    h < m.size ∧ (m.classAt h).lifecycle = .building
  finishRelations : ∀ h, (∃ m', m.finishRelations h = .ok m') ↔
    h < m.size ∧ (m.classAt h).lifecycle = .membersFinalized ∧
      ∀ i < m.size, (m.classAt i).lifecycle ≠ .building
  refused : ∀ op reason, (m.step op).2 = .refused reason → (m.step op).1 = m

theorem run_ordered (policy : Policy) (ops : List Operation) : Ordered ((empty policy).run ops).1 := by
  have hm := run_wellFormed policy ops
  generalize hrun : ((empty policy).run ops).1 = m at hm
  refine ⟨hm.pending, fun h m' hfin => ?_, fun h _ => hrun ▸ (run_moves (empty policy) ops).staged h,
    hrun ▸ run_barrier policy ops, fun h => ?_, fun h => ?_, fun op reason => step_refused hm⟩
  · obtain ⟨hh, hb, rfl⟩ := finishMembers_eq_ok_iff.1 hfin
    exact (Nat.sub_add_cancel (hm.pending_pos hh hb)).symm
  · simp only [finishMembers_eq_ok_iff]
    exact ⟨fun ⟨_, hh, hb, _⟩ => ⟨hh, hb⟩, fun ⟨hh, hb⟩ => ⟨_, hh, hb, rfl⟩⟩
  · rw [← taking_eq_zero_iff, ← hm.pending]
    simp only [finishRelations_eq_ok_iff]
    exact ⟨fun ⟨_, hh, hl, hp, _⟩ => ⟨hh, hl, hp⟩, fun ⟨hh, hl, hp⟩ => ⟨_, hh, hl, hp, rfl⟩⟩

end ClassModel

end ClassAtlas
