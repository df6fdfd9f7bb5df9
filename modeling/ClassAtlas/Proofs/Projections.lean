import ClassAtlas.Hierarchy
import ClassAtlas.Proofs.Arrangement
import ClassAtlas.Proofs.Views

/-! The views put related classes in order as they show them, so it makes no difference to them whether a cell was put
in order before. Finishing a class does just that to some of its cells, and leaves the list of the classes below it as
it is. So the hierarchy and the relations of every class look the same before and after (`run_showsAlike`), and they
still do when all classes are finished (`run_finishing_showsAlike`). -/

namespace ClassAtlas

namespace ClassNode

variable {n n1 n' : ClassNode} {order : List Handle → List Handle}

/-- Some cells of a class were put in order, though not the one that lists its subclasses. -/
structure Rearranged (order : List Handle → List Handle) (n n' : ClassNode) : Prop where
  handle : n'.handle = n.handle
  element : n'.element = n.element
  targets : ∀ d r, order (n'.targets d r) = order (n.targets d r)
  subclasses : n'.targets .inbound .superClass = n.targets .inbound .superClass

theorem Rearranged.refl (order : List Handle → List Handle) (n : ClassNode) : Rearranged order n n :=
  ⟨rfl, rfl, fun _ _ => rfl, rfl⟩

theorem Rearranged.trans (hr : Rearranged order n n1) (hr' : Rearranged order n1 n') : Rearranged order n n' :=
  ⟨hr'.handle.trans hr.handle, hr'.element.trans hr.element, fun d r => (hr'.targets d r).trans (hr.targets d r),
    hr'.subclasses.trans hr.subclasses⟩

/-- What is in order stays so when it is put in order again. -/
theorem rearranged_freeze (horder : ∀ hs, order (order hs) = order hs) {chosen : Slot → Bool}
    (hchosen : chosen (.inbound, .superClass) = false) : Rearranged order n (n.freeze order chosen) := by
  refine ⟨rfl, rfl, fun d r => ?_, ?_⟩ <;> rw [targets, cell_freeze]
  · split
    · exact horder _
    · rfl
  · rw [hchosen]
    rfl

theorem rearranged_finishMembers (horder : ∀ hs, order (order hs) = order hs) (policy : Policy) :
    Rearranged order n (n.finishMembers policy order) := by
  have hfreeze : Rearranged order (n.sortMembers policy) ((n.sortMembers policy).freeze order freezesWithMembers) :=
    rearranged_freeze horder rfl
  exact ⟨hfreeze.handle, hfreeze.element, hfreeze.targets, hfreeze.subclasses⟩

theorem rearranged_finishRelations (horder : ∀ hs, order (order hs) = order hs) :
    Rearranged order n (n.finishRelations order) := by
  have hfreeze : Rearranged order n (n.freeze order freezesWithRelations) := rearranged_freeze horder rfl
  exact ⟨hfreeze.handle, hfreeze.element, hfreeze.targets, hfreeze.subclasses⟩

end ClassNode

namespace ClassModel

variable {m m1 m' : ClassModel} {h : Handle}

/-- The second model is the first one with some cells put in order. -/
structure Rearranged (m m' : ClassModel) : Prop where
  policy : m'.policy = m.policy
  size : m'.size = m.size
  nodes : ∀ h, (m.classAt h).Rearranged m.sortHandles (m'.classAt h)

namespace Rearranged

theorem refl (m : ClassModel) : Rearranged m m := ⟨rfl, rfl, fun _ => ClassNode.Rearranged.refl ..⟩

theorem sortHandles_eq (hr : Rearranged m m') : m'.sortHandles = m.sortHandles :=
  sortHandles_congr hr.policy fun h => (hr.nodes h).element

theorem trans (hr : Rearranged m m1) (hr' : Rearranged m1 m') : Rearranged m m' :=
  ⟨hr'.policy.trans hr.policy, hr'.size.trans hr.size, fun h =>
    (hr.nodes h).trans (hr.sortHandles_eq ▸ hr'.nodes h)⟩

theorem targets_isEmpty (hr : Rearranged m m') (h : Handle) (d : Direction) (r : Relation) :
    ((m'.classAt h).targets d r).isEmpty = ((m.classAt h).targets d r).isEmpty := by
  have hlength := congrArg List.length ((hr.nodes h).targets d r)
  rw [sortHandles, sortHandles, length_sortBy, length_sortBy] at hlength
  rw [Bool.eq_iff_iff, List.isEmpty_iff_length_eq_zero, List.isEmpty_iff_length_eq_zero, hlength]

theorem isRoot_eq (hr : Rearranged m m') (h : Handle) : isRoot (m'.classAt h) = isRoot (m.classAt h) := by
  rw [isRoot, isRoot, hr.targets_isEmpty, hr.targets_isEmpty, ClassNode.isInterface, ClassNode.attributes,
    (hr.nodes h).element]
  rfl

theorem roots_eq (hr : Rearranged m m') : m'.roots = m.roots := by
  have hroot : isRoot ∘ m'.classAt = isRoot ∘ m.classAt := funext hr.isRoot_eq
  have hhandle : (fun n : ClassNode => n.handle) ∘ m'.classAt = (fun n => n.handle) ∘ m.classAt :=
    funext fun h => (hr.nodes h).handle
  rw [roots, roots, hr.sortHandles_eq, classes_eq m', classes_eq m, List.filter_map, List.filter_map, List.map_map,
    List.map_map, hr.size, hroot, hhandle]

theorem hierarchyTo_eq (hr : Rearranged m m') (depth : Nat) (h : Handle) :
    m'.hierarchyTo depth h = m.hierarchyTo depth h := by
  induction depth generalizing h with
  | zero => rfl
  | succ depth ih =>
    rw [hierarchyTo, hierarchyTo, hr.sortHandles_eq, subclasses, (hr.nodes h).targets, funext ih]
    rfl

theorem hierarchy_eq (hr : Rearranged m m') (root : Handle) : m'.hierarchy root = m.hierarchy root := by
  rw [hierarchy, hierarchy, hr.size, hr.hierarchyTo_eq]

theorem forest_eq (hr : Rearranged m m') : m'.forest = m.forest := by
  rw [forest, forest, hr.roots_eq, funext hr.hierarchy_eq]

/-- The search for a cycle goes by the lists of subclasses as they are, and so reports the same class. -/
theorem validateHierarchy_eq (hr : Rearranged m m') : m'.validateHierarchy = m.validateHierarchy := by
  have hedges (h : Handle) : ((m'.classAt h).targets .inbound .superClass).map ((m'.classAt h).handle, ·) =
      ((m.classAt h).targets .inbound .superClass).map ((m.classAt h).handle, ·) := by
    rw [(hr.nodes h).handle, (hr.nodes h).subclasses]
  have hgraph : m'.hierarchyGraph = m.hierarchyGraph := by
    rw [hierarchyGraph, hierarchyGraph, classes_eq m', classes_eq m, List.flatMap_map, List.flatMap_map, hr.size]
    simp only [hedges]
  have hid (h : Handle) : (m'.classAt h).id = (m.classAt h).id := congrArg Element.id (hr.nodes h).element
  rw [validateHierarchy, validateHierarchy, superClassCycle?, superClassCycle?, hgraph]
  simp only [hid]

theorem relationBranches_eq (hr : Rearranged m m') (h : Handle) :
    MemberTree.relationBranches m' (m'.classAt h) = MemberTree.relationBranches m (m.classAt h) := by
  unfold MemberTree.relationBranches
  congr 1
  funext ⟨r, d, title⟩
  rw [MemberTree.relationBranch, MemberTree.relationBranch, hr.sortHandles_eq, (hr.nodes h).targets]

end Rearranged

theorem rearranged_modify (hh : h < m.size) {f : ClassNode → ClassNode}
    (hf : (m.classAt h).Rearranged m.sortHandles (f (m.classAt h))) : Rearranged m (m.modify h f) := by
  refine ⟨rfl, size_modify f, fun i => ?_⟩
  rw [classAt_modify hh]
  split
  · rename_i e
    exact e ▸ hf
  · exact ClassNode.Rearranged.refl ..

theorem sortHandles_sortHandles (ht : Std.TransCmp m.policy.compare) (hs : List Handle) :
    m.sortHandles (m.sortHandles hs) = m.sortHandles hs := by
  have := transCmp_compare ht
  exact sortBy_sortBy hs

theorem Rearranged.finishMembers (hr : Rearranged m m1) (ht : Std.TransCmp m.policy.compare)
    (hfin : m1.finishMembers h = .ok m') : Rearranged m m' := by
  have ht1 : Std.TransCmp m1.policy.compare := hr.policy ▸ ht
  obtain ⟨hh, -, rfl⟩ := finishMembers_eq_ok_iff.1 hfin
  have hmodify : Rearranged m1 (m1.modify h fun n => n.finishMembers m1.policy m1.sortHandles) :=
    rearranged_modify hh (ClassNode.rearranged_finishMembers (sortHandles_sortHandles ht1) m1.policy)
  exact hr.trans ⟨hmodify.policy, hmodify.size, hmodify.nodes⟩

theorem Rearranged.finishRelations (hr : Rearranged m m1) (ht : Std.TransCmp m.policy.compare)
    (hfin : m1.finishRelations h = .ok m') : Rearranged m m' := by
  have ht1 : Std.TransCmp m1.policy.compare := hr.policy ▸ ht
  obtain ⟨hh, -, -, rfl⟩ := finishRelations_eq_ok_iff.1 hfin
  exact hr.trans (rearranged_modify hh (ClassNode.rearranged_finishRelations (sortHandles_sortHandles ht1)))

theorem Rearranged.step (hr : Rearranged m m1) (ht : Std.TransCmp m.policy.compare) {op : Operation}
    (hop : op.finishes = true) : Rearranged m (m1.step op).1 := by
  unfold ClassModel.step
  cases op.handles.find? fun h => m1.size ≤ h with
  | some _ => exact hr
  | none =>
    exact perform_finishes (P := Rearranged m) (fun _ _ _ hfin hr => hr.finishMembers ht hfin)
      (fun _ _ _ hfin hr => hr.finishRelations ht hfin) hr hop

theorem Rearranged.run (hr : Rearranged m m1) (ht : Std.TransCmp m.policy.compare) {ops : List Operation}
    (hops : ∀ op ∈ ops, op.finishes = true) : Rearranged m (m1.run ops).1 := by
  induction ops generalizing m1 with
  | nil => exact hr
  | cons op ops ih =>
    exact ih (hr.step ht (hops op (List.mem_cons_self ..))) fun op' hop' => hops op' (List.mem_cons_of_mem op hop')

/-- Two models that look the same to those who see classes in order. -/
structure ShowsAlike (m m' : ClassModel) : Prop where
  valid : m'.validateHierarchy = m.validateHierarchy
  roots : m'.roots = m.roots
  hierarchy : ∀ root, m'.hierarchy root = m.hierarchy root
  forest : m'.forest = m.forest
  relations : ∀ h, (m'.memberTree h).group? .relations = (m.memberTree h).group? .relations

theorem Rearranged.showsAlike (hr : Rearranged m m') : ShowsAlike m m' where
  valid := hr.validateHierarchy_eq
  roots := hr.roots_eq
  hierarchy := hr.hierarchy_eq
  forest := hr.forest_eq
  relations h := by rw [MemberTree.group?_relations, MemberTree.group?_relations, hr.relationBranches_eq]

/-- In any state of any run, also after violations. A hierarchy with a cycle keeps it and is cut off at the same
depth. -/
theorem run_showsAlike (policy : Policy) (preorder : Std.TransCmp policy.compare) (ops : List Operation) :
    let m := ((empty policy).run ops).1
    ∀ h m', m.finishMembers h = .ok m' ∨ m.finishRelations h = .ok m' → ShowsAlike m m' := by
  intro m h m' hfin
  have ht : Std.TransCmp m.policy.compare := (run_moves (empty policy) ops).policy ▸ preorder
  rcases hfin with hfin | hfin
  · exact ((Rearranged.refl m).finishMembers ht hfin).showsAlike
  · exact ((Rearranged.refl m).finishRelations ht hfin).showsAlike

/-- `B`, `A` and `D` extend `C`, which realizes `I`, and have one name. `B` is finished, and `A` is to be next. -/
def siblings : List Operation :=
  let named (id name : String) (modifiers : List Modifier) : Element :=
    { attributes := { id := id, name := name, kind := .classType, modifiers := .ofList modifiers } }
  [.addClass (named "I" "I" [.interface]) [], .addClass (named "A" "S" []) [], .addClass (named "B" "S" []) [],
    .addClass (named "C" "C" []) [], .addClass (named "D" "S" []) [], .addRelation 2 .superClass 3,
    .addRelation 1 .superClass 3, .addRelation 4 .superClass 3, .addSuperInterface 3 0, .addRelation 1 .association 3,
    .addRelation 1 .association 4, .addRelation 1 .association 2, .finishAllMembers, .finishRelations 2]

/-- The associations of `A` move in their cell, where those of one name stay in the order in which they came. -/
theorem run_showsAlike_siblings :
    let m := ((empty backwards).run siblings).1
    Std.TransCmp backwards.compare ∧ m.superClassCycle? = none ∧
      (m.classAt 1).targets .outbound .association = [3, 4, 2] ∧ m.sortHandles [3, 4, 2] = [4, 2, 3] ∧
      ∃ m', m.finishRelations 1 = .ok m' ∧ ShowsAlike m m' := by
  intro m
  have preorder : Std.TransCmp backwards.compare :=
    inferInstanceAs (Std.TransCmp fun a b : Attributes => compareOn (·.name) b a)
  have hok : (m.finishRelations 1).isOk = true := by decide +kernel
  cases hfin : m.finishRelations 1 with
  | error r =>
    rw [hfin] at hok
    cases hok
  | ok m' =>
    exact ⟨preorder, by decide +kernel, by decide +kernel, by decide +kernel, m', rfl,
      run_showsAlike backwards preorder siblings 1 m' (Or.inr hfin)⟩

/-- However many classes are finished from there, with or without refusals. -/
theorem run_finishing_showsAlike (policy : Policy) (preorder : Std.TransCmp policy.compare) (ops later : List Operation)
    (finishing : ∀ op ∈ later, op.finishes = true) :
    let m := ((empty policy).run ops).1
    ShowsAlike m (m.run later).1 :=
  have ht := (run_moves (empty policy) ops).policy ▸ preorder
  ((Rearranged.refl _).run ht finishing).showsAlike

end ClassModel

end ClassAtlas
