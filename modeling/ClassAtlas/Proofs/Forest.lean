import ClassAtlas.Hierarchy
import ClassAtlas.Proofs.Finishing
import ClassAtlas.Proofs.Mirror
import ClassAtlas.Proofs.SuperTypes
import Mathlib.Data.Finset.Card

/-! Without a cycle the hierarchy below a class is its complete unfolding (`hierarchy_eq`): going as deep as there
are classes is deep enough, since fewer classes stand below a class than below the one above it. So the trees of
the forest hold every class, and a root once (`run_covered`). -/

namespace ClassAtlas

namespace HierarchyTree

mutual

/-- The classes of a tree, each before those below it. -/
def handles : HierarchyTree → List Handle
  | ⟨h, _, children⟩ => h :: handlesOf children

def handlesOf : List HierarchyTree → List Handle
  | [] => []
  | t :: ts => handles t ++ handlesOf ts

end

theorem handlesOf_eq (ts : List HierarchyTree) : handlesOf ts = ts.flatMap handles := by
  induction ts with
  | nil => rfl
  | cons t ts ih => rw [handlesOf, ih, List.flatMap_cons]

@[simp] theorem handles_ofChildren (h : Handle) (ts : List HierarchyTree) :
    (ofChildren h ts).handles = h :: ts.flatMap handles := by
  rw [ofChildren, handles, handlesOf_eq]

end HierarchyTree

namespace ClassModel

/-- No class stands below itself. -/
def Acyclic (m : ClassModel) : Prop := ∀ h, ¬ Relation.TransGen m.Below h h

open Classical in
/-- The number of classes that stand below a class, directly or not. -/
noncomputable def rankOf (m : ClassModel) (h : Handle) : Nat :=
  ((Finset.range m.size).filter fun x => Relation.TransGen m.Below h x).card

variable {m : ClassModel} {h p c x : Handle}

open Classical in
theorem rankOf_le (m : ClassModel) (h : Handle) : m.rankOf h ≤ m.size := by
  have := Finset.card_filter_le (Finset.range m.size) fun x => Relation.TransGen m.Below h x
  rwa [Finset.card_range] at this

/-- Unless it stands below itself a class has fewer classes below it than one that it stands below. -/
theorem rankOf_lt_of_not_transGen (hm : WellFormed m) (hc : ¬ Relation.TransGen m.Below c c) (hpc : m.Below p c) :
    m.rankOf c < m.rankOf p := by
  have hlt : c < m.size := (hm.targets _ _ _ _ hpc).1
  apply Finset.card_lt_card
  rw [Finset.ssubset_iff_of_subset]
  · refine ⟨c, ?_, ?_⟩
    · simp [hlt, Relation.TransGen.single hpc]
    · simp [hc]
  · intro x hx
    simp only [Finset.mem_filter] at hx ⊢
    exact ⟨hx.1, Relation.TransGen.head hpc hx.2⟩

theorem rankOf_lt (hm : WellFormed m) (ha : Acyclic m) (hpc : m.Below p c) : m.rankOf c < m.rankOf p :=
  rankOf_lt_of_not_transGen hm (ha c) hpc

/-- What holds of a class whenever it holds of the classes below it holds of every class. -/
theorem below_induction (hm : WellFormed m) (ha : Acyclic m) {P : Handle → Prop}
    (step : ∀ h, (∀ c, m.Below h c → P c) → P h) (h : Handle) : P h := by
  induction hr : m.rankOf h using Nat.strong_induction_on generalizing h with
  | _ rank ih => exact step h fun c hc => ih (m.rankOf c) (hr ▸ rankOf_lt hm ha hc) c rfl

/-- Below a class of rank zero there is nothing to show. -/
theorem hierarchyTo_of_rankOf_eq_zero (hm : WellFormed m) (ha : Acyclic m) (hr : m.rankOf h = 0) (d : Nat) :
    m.hierarchyTo d h = .ofChildren h [] := by
  have hnone : m.subclasses h = [] := by
    rw [List.eq_nil_iff_forall_not_mem]
    intro c hc
    have := rankOf_lt hm ha hc
    omega
  cases d with
  | zero => rfl
  | succ d =>
    rw [hierarchyTo, hnone]
    rfl

/-- Depths beyond the rank of a class show the same hierarchy. -/
theorem hierarchyTo_congr (hm : WellFormed m) (ha : Acyclic m) {d e : Nat} (hd : m.rankOf h ≤ d)
    (he : m.rankOf h ≤ e) : m.hierarchyTo d h = m.hierarchyTo e h := by
  have hleaf (hr : m.rankOf h = 0) (k : Nat) := hierarchyTo_of_rankOf_eq_zero hm ha hr k
  induction d generalizing e h with
  | zero => rw [hleaf (by omega), hleaf (by omega)]
  | succ d ih =>
    cases e with
    | zero => rw [hleaf (by omega), hleaf (by omega)]
    | succ e =>
      rw [hierarchyTo, hierarchyTo]
      congr 1
      refine List.map_congr_left fun c hc => ?_
      have hlt : m.rankOf c < m.rankOf h := rankOf_lt hm ha ((mem_sortBy _).1 hc)
      apply ih
      · omega
      · omega
      · exact fun hr k => hierarchyTo_of_rankOf_eq_zero hm ha hr k

theorem hierarchy_eq (hm : WellFormed m) (ha : Acyclic m) (h : Handle) :
    m.hierarchy h = .ofChildren h ((m.sortHandles (m.subclasses h)).map m.hierarchy) := by
  have hrank := m.rankOf_le h
  have hdeeper : m.hierarchyTo m.size h = m.hierarchyTo (m.size + 1) h :=
    hierarchyTo_congr hm ha hrank (by omega)
  rw [hierarchy, hdeeper, hierarchyTo]
  rfl

theorem handles_hierarchy (hm : WellFormed m) (ha : Acyclic m) (h : Handle) : (m.hierarchy h).handles =
    h :: (m.sortHandles (m.subclasses h)).flatMap fun c => (m.hierarchy c).handles := by
  rw [hierarchy_eq hm ha, HierarchyTree.handles_ofChildren, List.flatMap_map]

/-- The hierarchy below a class shows the class and everything below it. -/
theorem mem_handles_hierarchy (hm : WellFormed m) (ha : Acyclic m) :
    x ∈ (m.hierarchy h).handles ↔ Relation.ReflTransGen m.Below h x := by
  induction h using below_induction hm ha with
  | _ h ih =>
    rw [handles_hierarchy hm ha, List.mem_cons, List.mem_flatMap, Relation.ReflTransGen.cases_head_iff]
    apply or_congr eq_comm
    apply exists_congr
    intro c
    rw [sortHandles, mem_sortBy]
    exact and_congr_right fun hc => ih c hc

/-- A class stands once in the hierarchy below it. -/
theorem count_handles_hierarchy (hm : WellFormed m) (ha : Acyclic m) (h : Handle) :
    (m.hierarchy h).handles.count h = 1 := by
  rw [handles_hierarchy hm ha, List.count_cons_self, Nat.add_eq_right, List.count_eq_zero, List.mem_flatMap]
  rintro ⟨c, hc, hh⟩
  rw [sortHandles, mem_sortBy] at hc
  rw [mem_handles_hierarchy hm ha] at hh
  exact ha h (Relation.TransGen.head' hc hh)

theorem isRoot_iff (hr : Realized m) (h : Handle) : isRoot (m.classAt h) = true ↔ ∀ p, ¬ m.Below p h := by
  have hbelow (p : Handle) : m.Below p h ↔ p ∈ (m.classAt h).targets .outbound .superClass ∨
      ((m.classAt h).isInterface = false ∧ p ∈ (m.classAt h).targets .outbound .superInterface) := hr h p
  simp only [hbelow, isRoot, Bool.and_eq_true, Bool.or_eq_true, List.isEmpty_iff, List.eq_nil_iff_forall_not_mem]
  cases (m.classAt h).isInterface <;> simp [forall_and]

theorem mem_roots (hm : WellFormed m) (hr : Realized m) :
    h ∈ m.roots ↔ h < m.size ∧ ∀ p, ¬ m.Below p h := by
  rw [roots, sortHandles, mem_sortBy, handles_filter hm.toClosed, List.mem_filter, List.mem_range, isRoot_iff hr]

theorem nodup_roots (hm : WellFormed m) : m.roots.Nodup := by
  rw [roots, sortHandles, (sortBy_perm _ _).nodup_iff, handles_filter hm.toClosed]
  exact List.nodup_range.filter _

/-- Climbing ends at a root, since each class above has more classes below it. -/
theorem exists_root (hm : WellFormed m) (ha : Acyclic m) (hr : Realized m) (hh : h < m.size) :
    ∃ r ∈ m.roots, Relation.ReflTransGen m.Below r h := by
  induction hk : m.size - m.rankOf h using Nat.strong_induction_on generalizing h with
  | _ k ih =>
    by_cases hroot : ∀ p, ¬ m.Below p h
    · exact ⟨h, (mem_roots hm hr).2 ⟨hh, hroot⟩, Relation.ReflTransGen.refl⟩
    · obtain ⟨p, hp⟩ := not_forall_not.1 hroot
      have hlt := rankOf_lt hm ha hp
      have hle := m.rankOf_le p
      obtain ⟨r, hmem, hreach⟩ := ih (m.size - m.rankOf p) (by omega) (lt_of_mem_targets hp) rfl
      exact ⟨r, hmem, hreach.tail hp⟩

/-- The forest shows every class, and the classes below no other as its roots, once each. -/
structure Covered (m : ClassModel) : Prop where
  roots : ∀ h, h ∈ m.roots ↔ h < m.size ∧ ∀ p, h ∉ (m.classAt p).targets .inbound .superClass
  nodup : m.roots.Nodup
  everywhere : ∀ h < m.size, ∃ t ∈ m.forest, h ∈ t.handles
  once : ∀ h ∈ m.roots, (m.forest.flatMap HierarchyTree.handles).count h = 1

theorem covered (hm : WellFormed m) (ha : Acyclic m) (hr : Realized m) : Covered m where
  roots _ := mem_roots hm hr
  nodup := nodup_roots hm
  everywhere h hh := by
    obtain ⟨r, hmem, hreach⟩ := exists_root hm ha hr hh
    exact ⟨m.hierarchy r, List.mem_map.2 ⟨r, hmem, rfl⟩, (mem_handles_hierarchy hm ha).2 hreach⟩
  once h hh := by
    have hnodup := nodup_roots hm
    have htop := ((mem_roots hm hr).1 hh).2
    -- no other tree shows a root
    have hother (rs : List Handle) (hrs : h ∉ rs) : (rs.flatMap fun r => (m.hierarchy r).handles).count h = 0 := by
      rw [List.count_eq_zero, List.mem_flatMap]
      rintro ⟨r, hmem, hin⟩
      rw [mem_handles_hierarchy hm ha] at hin
      rcases Relation.ReflTransGen.cases_tail hin with e | ⟨p, -, hp⟩
      · exact hrs (e ▸ hmem)
      · exact htop p hp
    rw [forest, List.flatMap_map]
    obtain ⟨before, after, e⟩ := List.append_of_mem hh
    rw [e] at hnodup ⊢
    rw [List.nodup_middle, List.nodup_cons, List.mem_append, not_or] at hnodup
    rw [List.flatMap_append, List.flatMap_cons, List.count_append, List.count_append,
      hother before hnodup.1.1, hother after hnodup.1.2, count_handles_hierarchy hm ha]

/-- After any run that adds super interfaces as such, violations included, a model without a cycle has a forest that
covers it. -/
theorem run_covered (policy : Policy) (ops : List Operation)
    (proper : ∀ op ∈ ops, op.isPlainSuperInterface = false)
    (valid : ((empty policy).run ops).1.validateHierarchy = .ok ()) : Covered ((empty policy).run ops).1 := by
  have hm := run_wellFormed policy ops
  rcases validateHierarchy_cases ((empty policy).run ops).1 with ⟨hnone, -⟩ | ⟨-, c, hc⟩
  · exact covered hm ((superClassCycle?_eq_none_iff hm).1 hnone) (run_realized policy proper)
  · rw [hc] at valid
    cases valid

/-- Once all is finished, `B` is to extend `A` and to realize `I`, both of them violations. -/
def lateSubclass : List Operation := lateInterface ++ [.addRelation 1 .superClass 0, .addSuperInterface 1 2]

theorem run_covered_lateSubclass :
    ((empty .byKind).run lateSubclass).2.countP Reply.isViolation = 2 ∧
      ((empty .byKind).run lateSubclass).1.roots = [1, 2, 3] ∧ Covered ((empty .byKind).run lateSubclass).1 := by
  have proper : ∀ op ∈ lateSubclass, op.isPlainSuperInterface = false := by decide +kernel
  have acyclic : ((empty .byKind).run lateSubclass).1.superClassCycle? = none := by decide +kernel
  have valid : ((empty .byKind).run lateSubclass).1.validateHierarchy = .ok () := by
    rw [validateHierarchy, acyclic]
  exact ⟨by decide +kernel, by decide +kernel, run_covered .byKind lateSubclass proper valid⟩

end ClassModel

end ClassAtlas
