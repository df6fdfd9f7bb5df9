import ClassAtlas.Guarded
import ClassAtlas.Model.Narrow
import ClassAtlas.Proofs.HierarchyCycle
import ClassAtlas.Proofs.Mirror
import ClassAtlas.Proofs.Persistence
import Mathlib.Algebra.Ring.Nat

/-! Handles never lead outside. While a model has at most 2 ^ 32 classes its handles of 32 bits are the places of the
classes (`runNarrow_eq`), so in every state of every run all stored handles are places, and whatever a model is asked
under a handle of its own gets by with look-ups that succeed (`run_sealed`). -/

namespace ClassAtlas

open ClassModel

theorem narrow_of_lt {place : Nat} (h : place < 2 ^ 32) : narrow place = place :=
  UInt32.toNat_ofNat_of_lt' h

/-- A list of answers is there if each of them is. -/
theorem mapM_of_forall {α β : Type} {f : α → Option β} {g : α → β} {as : List α}
    (h : ∀ a ∈ as, f a = some (g a)) : as.mapM f = some (as.map g) := by
  induction as with
  | nil => rfl
  | cons a as ih =>
    have htail := ih fun b hb => h b (List.mem_cons_of_mem a hb)
    simp [h a (List.mem_cons_self ..), htail]

namespace ClassModel

variable {m m' : ClassModel}

theorem addClassNarrow_eq (h : m.size < 2 ^ 32) (e : Element) (ps : List TypeRef) :
    m.addClassNarrow e ps = m.addClass e ps := by
  rw [addClassNarrow, addClass, narrow_of_lt h]
  rfl

theorem size_stepNarrow (m : ClassModel) (op : Operation) : m.size ≤ (m.stepNarrow op).1.size := by
  cases op with
  | addClass e ps =>
    rw [stepNarrow, addClassNarrow]
    split <;> rename_i hadd <;> split at hadd <;> cases hadd
    · simp [size, register]
    · exact Nat.le_refl _
  | _ => exact (step_moves m _).visible.1

theorem size_runNarrow (m : ClassModel) (ops : List Operation) : m.size ≤ (m.runNarrow ops).1.size := by
  induction ops generalizing m with
  | nil => exact Nat.le_refl _
  | cons op ops ih => exact Nat.le_trans (size_stepNarrow m op) (ih (m.stepNarrow op).1)

theorem stepNarrow_eq {op : Operation} (h : (m.stepNarrow op).1.size ≤ 2 ^ 32) : m.stepNarrow op = m.step op := by
  cases op with
  | addClass e ps =>
    -- a model that is full has no room for the class, so it was not registered
    rcases Nat.lt_or_ge m.size (2 ^ 32) with hlt | hge
    · rw [stepNarrow, addClassNarrow_eq hlt]
      rfl
    · cases hid : m.handle? e.id with
      | some i => simp [stepNarrow, addClassNarrow, step, Operation.handles, perform, addClass, hid]
      | none =>
        simp only [stepNarrow, addClassNarrow, hid, register, size, List.length_append, List.length_singleton] at h
        exact absurd (Nat.lt_of_lt_of_le (Nat.lt_succ_of_le hge) h) (Nat.lt_irrefl _)
  | _ => rfl

/-- Up to 2 ^ 32 classes it makes no difference that handles have 32 bits. -/
theorem runNarrow_eq {ops : List Operation} (h : (m.runNarrow ops).1.size ≤ 2 ^ 32) :
    m.runNarrow ops = m.run ops := by
  induction ops generalizing m with
  | nil => rfl
  | cons op ops ih =>
    have hstep : m.stepNarrow op = m.step op :=
      stepNarrow_eq (Nat.le_trans (size_runNarrow (m.stepNarrow op).1 ops) h)
    have hrest : (m.stepNarrow op).1.runNarrow ops = (m.stepNarrow op).1.run ops := ih h
    simp only [runNarrow, run, hrest]
    rw [hstep]

end ClassModel

namespace Guarded

variable {m : ClassModel} {h : Handle} {n : ClassNode}

theorem classAt_eq (hh : h < m.size) : classAt m h = some (m.classAt h) := getElem?_classes hh

theorem sortHandles_eq {hs : List Handle} (hin : ∀ h ∈ hs, h < m.size) :
    sortHandles m hs = some (m.sortHandles hs) := by
  have hkeyed : (hs.mapM fun h => do
      let n ← classAt m h
      return (h, n.attributes)) = some (hs.map fun h => (h, (m.classAt h).attributes)) := by
    refine mapM_of_forall fun h hh => ?_
    rw [classAt_eq (hin h hh)]
    rfl
  rw [sortHandles, hkeyed]
  simp only [Option.bind_eq_bind, Option.bind_some, Option.pure_def, sortBy_map, List.map_map]
  exact congrArg some (List.map_id _)

theorem freeze_eq (hin : ∀ d r, ∀ t ∈ n.targets d r, t < m.size) (chosen : Slot → Bool) :
    freeze m n chosen = some (n.freeze m.sortHandles chosen) := by
  have hcell : (fun slot => freezeCell m chosen slot (n.cells.get slot)) = fun slot =>
      some (if chosen slot && !(n.cells.get slot).frozen then (n.cells.get slot).freeze m.sortHandles
        else n.cells.get slot) := by
    funext slot
    rw [freezeCell]
    split
    · have hordered : sortHandles m (n.cells.get slot).targets = _ := sortHandles_eq (hin slot.1 slot.2)
      rw [hordered]
      rfl
    · rfl
  rw [freeze, hcell, EnumMap.ofFn?_some]
  rfl

variable (hm : WellFormed m)

include hm

theorem lt_of_mem_targets {d : Direction} {r : Relation} : ∀ t ∈ (m.classAt h).targets d r, t < m.size :=
  fun t ht => (hm.targets h d r t ht).1

theorem finishMembers_eq (hh : h < m.size) : finishMembers m h = some (m.finishMembers h) := by
  have hfreeze := freeze_eq (m := m) (n := (m.classAt h).sortMembers m.policy)
    (fun d r => lt_of_mem_targets hm) ClassNode.freezesWithMembers
  rw [finishMembers, classAt_eq hh, ClassModel.finishMembers, getElem?_classes hh]
  simp only [Option.bind_eq_bind, Option.bind_some, hfreeze, Option.pure_def]
  split
  · rename_i taking
    have hpos := hm.pending_pos hh taking
    rw [if_neg hpos.ne', ← modify_fun_classAt hh (fun n => n.finishMembers m.policy m.sortHandles)]
    rfl
  · rfl

theorem finishRelations_eq (hh : h < m.size) : finishRelations m h = some (m.finishRelations h) := by
  have hfreeze := freeze_eq (m := m) (n := m.classAt h) (fun d r => lt_of_mem_targets hm)
    ClassNode.freezesWithRelations
  rw [finishRelations, classAt_eq hh, ClassModel.finishRelations, getElem?_classes hh]
  simp only [Option.bind_eq_bind, Option.bind_some, hfreeze, Option.pure_def]
  cases (m.classAt h).lifecycle with
  | building => rfl
  | relationsFinalized => rfl
  | membersFinalized =>
    dsimp only
    split
    · rw [← modify_fun_classAt hh (fun n => n.finishRelations m.sortHandles)]
      rfl
    · rfl

theorem hierarchyGraph_eq : hierarchyGraph m = some m.hierarchyGraph := by
  have hnode {i : Handle} (hi : i < m.size) : (List.range m.size)[i]? = some i := List.getElem?_range hi
  have hedges : (m.classes.mapM fun n => do
      let above ← (List.range m.size)[n.handle]?
      (n.targets .inbound .superClass).mapM fun h => do
        let below ← (List.range m.size)[h]?
        return (above, below)) =
      some (m.classes.map fun n => (n.targets .inbound .superClass).map fun h => (n.handle, h)) := by
    refine mapM_of_forall fun n hn => ?_
    obtain ⟨i, hi, rfl⟩ := mem_classes.1 hn
    rw [hm.numbered i hi, hnode hi]
    refine mapM_of_forall fun x hx => ?_
    rw [hnode (lt_of_mem_targets hm x hx)]
    rfl
  rw [hierarchyGraph, hedges, ClassModel.hierarchyGraph, List.flatMap]
  rfl

theorem superClassCycle_eq : superClassCycle m = some m.superClassCycle? := by
  rw [superClassCycle, hierarchyGraph_eq hm, ClassModel.superClassCycle?]
  simp only [Option.bind_eq_bind, Option.bind_some, Option.pure_def]
  cases hc : m.hierarchyGraph.cycle? with
  | none => rfl
  | some c =>
    have hlt : c < m.size := superClassCycle?_lt hm hc
    simp only [classAt_eq hlt, Option.bind_some, hm.numbered c hlt]

theorem hierarchyTo_eq (depth : Nat) (hh : h < m.size) : hierarchyTo m depth h = some (m.hierarchyTo depth h) := by
  induction depth generalizing h with
  | zero =>
    rw [hierarchyTo, classAt_eq hh, ClassModel.hierarchyTo]
    simp [hm.numbered h hh]
  | succ depth ih =>
    have hsub : ∀ t ∈ m.subclasses h, t < m.size := lt_of_mem_targets hm
    have hchildren : (m.sortHandles (m.subclasses h)).mapM (hierarchyTo m depth) =
        some ((m.sortHandles (m.subclasses h)).map (m.hierarchyTo depth)) :=
      mapM_of_forall fun t ht => ih (hsub t ((mem_sortBy m.compare).1 ht))
    have hsorted := sortHandles_eq hsub
    rw [ClassModel.subclasses] at hsorted hchildren
    rw [hierarchyTo, classAt_eq hh, ClassModel.hierarchyTo, ClassModel.subclasses]
    simp only [Option.bind_eq_bind, Option.bind_some, hsorted, hchildren, Option.pure_def, hm.numbered h hh]

theorem roots_eq : roots m = some m.roots := by
  refine sortHandles_eq fun h hh => ?_
  rw [handles_filter hm.toClosed] at hh
  exact List.mem_range.1 (List.mem_filter.1 hh).1

theorem relationBranch_eq (group : Relation × Direction × String) :
    relationBranch m (m.classAt h) group = some (MemberTree.relationBranch m (m.classAt h) group) := by
  obtain ⟨r, d, title⟩ := group
  have hin : ∀ t ∈ (m.classAt h).targets d r, t < m.size := lt_of_mem_targets hm
  have hleaves : ((m.sortHandles ((m.classAt h).targets d r)).mapM fun t => do
      let target ← classAt m t
      return (⟨.classNode target.handle, []⟩ : MemberTree)) =
      some ((m.sortHandles ((m.classAt h).targets d r)).map fun t => ⟨.classNode t, []⟩) := by
    refine mapM_of_forall fun t ht => ?_
    have hlt := hin t ((mem_sortBy m.compare).1 ht)
    simp [classAt_eq hlt, hm.numbered t hlt]
  rw [relationBranch, sortHandles_eq hin]
  simp only [Option.bind_eq_bind, Option.bind_some, Option.pure_def] at hleaves ⊢
  rw [hleaves]
  rfl

theorem memberTree_eq (hh : h < m.size) : memberTree m h = some (m.memberTree h) := by
  have hbranches : MemberTree.relationGroups.mapM (relationBranch m (m.classAt h)) =
      some (MemberTree.relationGroups.map (MemberTree.relationBranch m (m.classAt h))) :=
    mapM_of_forall fun group _ => relationBranch_eq hm group
  rw [memberTree, classAt_eq hh]
  simp only [Option.bind_eq_bind, Option.bind_some, hbranches, Option.pure_def, hm.numbered h hh]
  rfl

theorem umlParents_eq : umlParents m (m.classAt h) = some (m.umlParents (m.classAt h)) := by
  refine mapM_of_forall fun t ht => ?_
  have hlt : t < m.size := by
    split at ht
    · exact lt_of_mem_targets hm t ht
    · exact lt_of_mem_targets hm t ht
  simp [classAt_eq hlt]

theorem umlTable_eq (hh : h < m.size) : umlTable m h = some (m.umlTable h) := by
  rw [umlTable, classAt_eq hh]
  simp only [Option.bind_eq_bind, Option.bind_some, umlParents_eq hm, Option.pure_def]
  rfl

end Guarded

/-- Places and handles, ids and classes go together, and no stored handle leads outside. -/
structure Sealed (m : ClassModel) : Prop where
  handle : ∀ (i : Nat) n, m.classes[i]? = some n → n.handle = i
  index : ∀ id h, m.handle? id = some h ↔ ∃ n, m.classes[h]? = some n ∧ n.id = id
  ids : (m.classes.map (·.id)).Nodup
  cells : ∀ n ∈ m.classes, ∀ d r, ∀ t ∈ (n.cell d r).targets ++ (n.cell d r).seen, t < m.size
  ledgers : ∀ n ∈ m.classes, ∀ d, ∀ t ∈ n.ledger d, t < m.size

/-- What the model does under its handles it does with guarded look-ups too. -/
structure Guards (m : ClassModel) : Prop where
  finishMembers : ∀ h < m.size, Guarded.finishMembers m h = some (m.finishMembers h)
  finishRelations : ∀ h < m.size, Guarded.finishRelations m h = some (m.finishRelations h)
  superClassCycle : Guarded.superClassCycle m = some m.superClassCycle?
  hierarchy : ∀ h < m.size, ∀ depth, Guarded.hierarchyTo m depth h = some (m.hierarchyTo depth h)
  roots : Guarded.roots m = some m.roots
  memberTree : ∀ h < m.size, Guarded.memberTree m h = some (m.memberTree h)
  umlTable : ∀ h < m.size, Guarded.umlTable m h = some (m.umlTable h)
  summary : ∀ h < m.size, Guarded.summary m h = some (m.classAt h).summary

namespace ClassModel

variable {m : ClassModel}

theorem WellFormed.sealed (hm : WellFormed m) : Sealed m where
  handle i n hn := by
    have hi : i < m.size := (List.getElem?_eq_some_iff.1 hn).1
    rw [getElem?_classes hi] at hn
    exact Option.some.inj hn ▸ hm.numbered i hi
  index id h := by
    rw [hm.indexed]
    constructor
    · rintro ⟨hh, hid⟩
      exact ⟨m.classAt h, getElem?_classes hh, hid⟩
    · rintro ⟨n, hn, hid⟩
      have hh : h < m.size := (List.getElem?_eq_some_iff.1 hn).1
      rw [getElem?_classes hh] at hn
      exact ⟨hh, Option.some.inj hn ▸ hid⟩
  ids := by
    rw [classes_eq, List.map_map]
    refine List.Nodup.map_on (fun a ha b hb hab => ?_) List.nodup_range
    exact hm.unique a b (List.mem_range.1 ha) (List.mem_range.1 hb) hab
  cells n hn d r t ht := by
    obtain ⟨h, -, rfl⟩ := mem_classes.1 hn
    rcases List.mem_append.1 ht with ht | ht
    · exact (hm.targets h d r t ht).1
    · exact (hm.targets h d r t (((m.classAt h).cell d r).mem_of_seen t ht)).1
  ledgers n hn d t ht := by
    obtain ⟨h, -, rfl⟩ := mem_classes.1 hn
    exact (hm.ledger h d t ht).1

theorem WellFormed.guards (hm : WellFormed m) : Guards m where
  finishMembers _ := Guarded.finishMembers_eq hm
  finishRelations _ := Guarded.finishRelations_eq hm
  superClassCycle := Guarded.superClassCycle_eq hm
  hierarchy _ hh depth := Guarded.hierarchyTo_eq hm depth hh
  roots := Guarded.roots_eq hm
  memberTree _ := Guarded.memberTree_eq hm
  umlTable _ := Guarded.umlTable_eq hm
  summary h hh := by rw [Guarded.summary, Guarded.classAt_eq hh]; rfl

/-- With handles of 32 bits, as long as there are no more classes than these can tell apart. -/
theorem run_sealed (policy : Policy) (ops : List Operation)
    (h : ((empty policy).runNarrow ops).1.size ≤ 2 ^ 32) :
    Sealed ((empty policy).runNarrow ops).1 ∧ Guards ((empty policy).runNarrow ops).1 := by
  rw [runNarrow_eq h]
  have hm := run_wellFormed policy ops
  exact ⟨hm.sealed, hm.guards⟩

theorem run_sealed_lateInterface : ((empty .byKind).runNarrow lateInterface).1.size ≤ 2 ^ 32 ∧
    Sealed ((empty .byKind).runNarrow lateInterface).1 ∧ Guards ((empty .byKind).runNarrow lateInterface).1 :=
  have h : ((empty .byKind).runNarrow lateInterface).1.size ≤ 2 ^ 32 := by decide +kernel
  ⟨h, run_sealed .byKind lateInterface h⟩

end ClassModel

end ClassAtlas
