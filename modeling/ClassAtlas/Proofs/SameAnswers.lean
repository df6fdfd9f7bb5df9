import ClassAtlas.Proofs.Renaming
import ClassAtlas.Proofs.TreeNodes

/-! What an engine hands out names no handle, and every list of classes in it is in order. So engines whose models
have the same classes under different handles give the same answers (`Renames.sameAnswers`). -/

namespace ClassAtlas

/-- All that two engines tell about classes agrees. -/
structure Engine.SameAnswers (e e' : Engine) : Prop where
  classes : e'.classes = e.classes
  forest : e'.hierarchy none = e.hierarchy none
  hierarchy : ∀ id, e'.hierarchy (some id) = e.hierarchy (some id)
  members : ∀ id, e'.members id = e.members id
  uml : ∀ id, e'.uml id = e.uml id
  summary : ∀ id, e'.summary id = e.summary id

namespace HierarchyView

theorem ofTrees_eq (m : ClassModel) (ts : List HierarchyTree) : ofTrees m ts = ts.map (ofTree m) := by
  induction ts with
  | nil => rfl
  | cons t ts ih => rw [ofTrees, ih, List.map_cons]

theorem count_ofTree (m : ClassModel) (t : HierarchyTree) : (ofTree m t).count = t.count := by
  cases t
  rfl

/-- The view of a tree by the views of its children. -/
theorem ofTree_ofChildren (m : ClassModel) (h : Handle) (ts : List HierarchyTree) :
    ofTree m (.ofChildren h ts) = ⟨.ofNode (m.classAt h),
      (ts.map (ofTree m)).foldr (fun v n => v.count + 1 + n) 0, ts.map (ofTree m)⟩ := by
  simp [HierarchyTree.ofChildren, ofTree, ofTrees_eq, List.foldr_map, count_ofTree]

end HierarchyView

namespace TreeView

variable {m m' : ClassModel} {ts ts' : List MemberTree}

theorem ofTrees_append (m : ClassModel) (ts us : List MemberTree) :
    ofTrees m (ts ++ us) = ofTrees m ts ++ ofTrees m us := by
  simp [ofTrees_eq]

/-- A branch shows its children and how many they are. -/
theorem ofTrees_branch (label : Nat → GroupLabel) (h : ofTrees m' ts' = ofTrees m ts) :
    ofTrees m' (MemberTree.branch label ts') = ofTrees m (MemberTree.branch label ts) := by
  have hlength : ts'.length = ts.length := by
    simpa [ofTrees_eq] using congrArg List.length h
  unfold MemberTree.branch
  simp only [List.isEmpty_iff_length_eq_zero, hlength]
  split
  · rfl
  · simp [ofTrees, ofTree, h, TreeViewItem.ofItem]

theorem ofTrees_annotationBranch (m m' : ClassModel) (annotations : List AnnotationRef) :
    ofTrees m' (MemberTree.annotationBranch annotations) = ofTrees m (MemberTree.annotationBranch annotations) := by
  apply ofTrees_branch
  simp [ofTrees_eq, ofTree, ofTrees, TreeViewItem.ofItem]

mutual

/-- No class stands in the tree of an element. -/
theorem ofTree_ofElement (m m' : ClassModel) :
    ∀ e, ofTree m' (MemberTree.ofElement e) = ofTree m (MemberTree.ofElement e)
  | ⟨attributes, annotations, declaredType, suffix, details⟩ => by
    rw [MemberTree.ofElement, ofTree, ofTree, ofTrees_append, ofTrees_append, ofTrees_annotationBranch m m',
      ofTrees_ofDetails m m' details]
    rfl

theorem ofTrees_ofDetails (m m' : ClassModel) :
    ∀ d, ofTrees m' (MemberTree.ofDetails d) = ofTrees m (MemberTree.ofDetails d)
  | .plain => rfl
  | .operation parameters throwables => by
    rw [MemberTree.ofDetails, ofTrees_append, ofTrees_append,
      ofTrees_branch _ (ofTrees_ofElements m m' parameters), ofTrees_branch _ (ofTrees_ofElements m m' throwables)]

theorem ofTrees_ofElements (m m' : ClassModel) :
    ∀ es, ofTrees m' (MemberTree.ofElements es) = ofTrees m (MemberTree.ofElements es)
  | [] => rfl
  | e :: es => by
    rw [MemberTree.ofElements, ofTrees, ofTrees, ofTree_ofElement m m' e, ofTrees_ofElements m m' es]

end

end TreeView

namespace ClassModel

namespace Renames

variable {φ : Handle → Handle} {m m' : ClassModel} {h : Handle}

theorem ofNode_eq (hr : Renames φ m m') (hh : h < m.size) :
    ClassRef.ofNode (m'.classAt (φ h)) = ClassRef.ofNode (m.classAt h) :=
  ClassRef.ofNode_congr (hr.content h hh)

theorem hierarchyTo_eq (hr : Renames φ m m') (depth : Nat) (hh : h < m.size) :
    HierarchyView.ofTree m' (m'.hierarchyTo depth (φ h)) = HierarchyView.ofTree m (m.hierarchyTo depth h) := by
  induction depth generalizing h with
  | zero =>
    rw [hierarchyTo, hierarchyTo, HierarchyView.ofTree_ofChildren, HierarchyView.ofTree_ofChildren,
      hr.ofNode_eq hh]
    rfl
  | succ depth ih =>
    have hchildren : ((m'.sortHandles (m'.subclasses (φ h))).map (m'.hierarchyTo depth)).map
        (HierarchyView.ofTree m') =
        ((m.sortHandles (m.subclasses h)).map (m.hierarchyTo depth)).map (HierarchyView.ofTree m) := by
      rw [subclasses, subclasses, hr.sortTargets_eq hh]
      simp only [List.map_map]
      apply List.map_congr_left
      intro c hc
      exact ih (hr.lt_of_mem_targets .inbound .superClass c ((mem_sortBy m.compare).1 hc))
    rw [hierarchyTo, hierarchyTo, HierarchyView.ofTree_ofChildren, HierarchyView.ofTree_ofChildren,
      hr.ofNode_eq hh, hchildren]

theorem hierarchy_eq (hr : Renames φ m m') (hh : h < m.size) :
    HierarchyView.ofTree m' (m'.hierarchy (φ h)) = HierarchyView.ofTree m (m.hierarchy h) := by
  rw [hierarchy, hierarchy, hr.size_eq]
  exact hr.hierarchyTo_eq m.size hh

theorem lt_of_mem_roots (hr : Renames φ m m') : ∀ h ∈ m.roots, h < m.size := by
  intro h hh
  rw [roots, sortHandles, mem_sortBy, handles_filter hr.settled.wellFormed.toClosed] at hh
  exact List.mem_range.1 (List.mem_filter.1 hh).1

theorem forest_eq (hr : Renames φ m m') :
    HierarchyView.ofTrees m' m'.forest = HierarchyView.ofTrees m m.forest := by
  rw [HierarchyView.ofTrees_eq, HierarchyView.ofTrees_eq, forest, forest, hr.roots_eq]
  simp only [List.map_map]
  apply List.map_congr_left
  intro h hh
  exact hr.hierarchy_eq (hr.lt_of_mem_roots h hh)

theorem relationBranches_eq (hr : Renames φ m m') (hh : h < m.size) :
    TreeView.ofTrees m' (MemberTree.relationBranches m' (m'.classAt (φ h))) =
      TreeView.ofTrees m (MemberTree.relationBranches m (m.classAt h)) := by
  have hbranch (g : Relation × Direction × String) :
      TreeView.ofTrees m' (MemberTree.relationBranch m' (m'.classAt (φ h)) g) =
        TreeView.ofTrees m (MemberTree.relationBranch m (m.classAt h) g) := by
    obtain ⟨r, d, title⟩ := g
    apply TreeView.ofTrees_branch
    rw [hr.sortTargets_eq hh, TreeView.ofTrees_eq, TreeView.ofTrees_eq]
    simp only [List.map_map]
    apply List.map_congr_left
    intro t ht
    have hlt := hr.lt_of_mem_targets d r t ((mem_sortBy m.compare).1 ht)
    simp [TreeView.ofTree, TreeView.ofTrees, TreeViewItem.ofItem, hr.ofNode_eq hlt]
  unfold MemberTree.relationBranches
  induction MemberTree.relationGroups with
  | nil => rfl
  | cons g gs ih => rw [List.flatMap_cons, List.flatMap_cons, TreeView.ofTrees_append, TreeView.ofTrees_append,
      hbranch, ih]

theorem contentBranches_eq (hr : Renames φ m m') (hh : h < m.size) :
    TreeView.ofTrees m' (MemberTree.contentBranches (m'.classAt (φ h))) =
      TreeView.ofTrees m (MemberTree.contentBranches (m.classAt h)) := by
  have hmembers : (m'.classAt (φ h)).memberLists = (m.classAt h).memberLists := by
    have := congrArg Content.members (hr.content h hh)
    exact congrArg (fun ms : EnumMap ElementKind (Option (List Element)) =>
      ms.toList.filterMap fun entry => entry.2.map (entry.1, ·)) this
  have helement := ClassNode.element_congr (hr.content h hh)
  unfold MemberTree.contentBranches
  rw [hmembers, ClassNode.annotations, ClassNode.annotations, helement, TreeView.ofTrees_append,
    TreeView.ofTrees_append, TreeView.ofTrees_annotationBranch m m']
  congr 1
  induction (m.classAt h).memberLists with
  | nil => rfl
  | cons g gs ih =>
    rw [List.flatMap_cons, TreeView.ofTrees_append, TreeView.ofTrees_append, ih,
      TreeView.ofTrees_branch _ (TreeView.ofTrees_ofElements m m' g.2)]

theorem treeView_eq (hr : Renames φ m m') (hh : h < m.size) : m'.treeView (φ h) = m.treeView h := by
  rw [treeView, treeView, memberTree, memberTree, TreeView.ofTree, TreeView.ofTree, TreeView.ofTrees_append,
    TreeView.ofTrees_append, TreeView.ofTrees_branch _ (hr.contentBranches_eq hh),
    TreeView.ofTrees_branch _ (hr.relationBranches_eq hh), TreeViewItem.ofItem, TreeViewItem.ofItem, hr.ofNode_eq hh]

theorem umlParents_eq (hr : Renames φ m m') (hh : h < m.size) :
    m'.umlParents (m'.classAt (φ h)) = m.umlParents (m.classAt h) := by
  have hsuper (r : Relation) (hsuper : r = .superClass ∨ r = .superInterface) :
      (m'.classAt (φ h)).targets .outbound r = ((m.classAt h).targets .outbound r).map φ := by
    apply hr.eq_map_of_ascending (hr.lt_of_mem_targets .outbound r) (hr.settled.superTypes h hh r hsuper)
    · exact hr.settled'.superTypes (φ h) (hr.inside h hh) r hsuper
    · exact hr.targets h hh .outbound r
  have hparents {ps : List Handle} (hin : ∀ p ∈ ps, p < m.size) :
      (ps.map φ).map (fun p => (⟨(m'.classAt p).shortName, .forElement (m'.classAt p).attributes⟩ : StyledText)) =
        ps.map fun p => ⟨(m.classAt p).shortName, .forElement (m.classAt p).attributes⟩ := by
    rw [List.map_map]
    apply List.map_congr_left
    intro p hp
    have hc := hr.content p (hin p hp)
    simp only [Function.comp, ClassNode.shortName_congr hc, ClassNode.attributes_congr hc]
  simp only [umlParents, hsuper .superClass (Or.inl rfl), hsuper .superInterface (Or.inr rfl), List.isEmpty_map]
  split
  · exact hparents (hr.lt_of_mem_targets .outbound .superInterface)
  · exact hparents (hr.lt_of_mem_targets .outbound .superClass)

theorem umlTable_eq (hr : Renames φ m m') (hh : h < m.size) : m'.umlTable (φ h) = m.umlTable h := by
  have hc := hr.content h hh
  have hsection : umlSection (m'.classAt (φ h)) = umlSection (m.classAt h) := by
    funext kind
    rw [umlSection, umlSection, ClassNode.membersOf_congr hc]
  simp only [umlTable, hr.umlParents_eq hh, hsection, ClassNode.id_congr hc, ClassNode.annotations,
    ClassNode.element_congr hc, ClassNode.attributes_congr hc, ClassNode.umlNamespace, ClassNode.shortName_congr hc]

theorem summary_eq (hr : Renames φ m m') (hh : h < m.size) :
    SummaryView.ofNode (m'.classAt (φ h)) = SummaryView.ofNode (m.classAt h) := by
  have hc := hr.content h hh
  simp only [SummaryView.ofNode, ClassNode.umlName, ClassNode.id_congr hc, ClassNode.summary, ClassNode.usage,
    ClassNode.count, ClassNode.membersOf_congr hc, hr.targets_length hh, hr.ledger h hh]

/-- An id leads to a class in both models or in neither. -/
theorem map_lookup {α : Type} {f f' : Handle → α} (hr : Renames φ m m') (hf : ∀ h < m.size, f' (φ h) = f h)
    (path path' id : String) :
    (Engine.lookup ⟨path', m'⟩ id).map f' = (Engine.lookup ⟨path, m⟩ id).map f := by
  simp only [Engine.lookup, hr.handle?_eq]
  cases hid : m.handle? id with
  | none => rfl
  | some h =>
    have hh := ((handle?_eq_some_iff hr.settled.wellFormed).1 hid).1
    exact congrArg Except.ok (hf h hh)

theorem sameAnswers (hr : Renames φ m m') (path path' : String) : Engine.SameAnswers ⟨path, m⟩ ⟨path', m'⟩ where
  classes := by
    have hitems : (m'.sortHandles m'.handles).map (fun h => ClassRef.ofNode (m'.classAt h)) =
        (m.sortHandles m.handles).map fun h => ClassRef.ofNode (m.classAt h) := by
      rw [hr.handles_eq, List.map_map]
      apply List.map_congr_left
      intro h hh
      rw [sortHandles, mem_sortBy, handles_eq_range hr.settled.wellFormed.toClosed, List.mem_range] at hh
      exact hr.ofNode_eq hh
    simp only [Engine.classes, hitems]
  forest := congrArg Except.ok hr.forest_eq
  hierarchy id := by
    apply hr.map_lookup
    intro h hh
    rw [hr.hierarchy_eq hh]
  members id := hr.map_lookup (fun _ hh => hr.treeView_eq hh) path path' id
  uml id := hr.map_lookup (fun _ hh => hr.umlTable_eq hh) path path' id
  summary id := hr.map_lookup (fun _ hh => hr.summary_eq hh) path path' id

end Renames

end ClassModel

end ClassAtlas
