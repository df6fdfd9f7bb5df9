import ClassAtlas.Proofs.TreeContents
import ClassAtlas.Proofs.Views
import Mathlib.Data.List.Count
import Mathlib.Data.List.Nodup

/-! The marker of a group tells it from the other groups beside it, in the tree of a class and in its view
(`run_markers`). There is one exception: annotations may be members too, and the content of a class that is annotated
and has such members holds two groups of annotations. -/

namespace ClassAtlas

namespace GroupMarker

/-- All markers there are. -/
def all : List GroupMarker :=
  [.content, .relations] ++ (every ElementKind).map .kind ++
    (every Slot).map fun slot => .relation slot.2 slot.1

theorem mem_all (marker : GroupMarker) : marker ∈ all := by
  rw [all, List.mem_append, List.mem_append]
  cases marker with
  | content => exact Or.inl (Or.inl (List.mem_cons_self ..))
  | relations => exact Or.inl (Or.inl (List.mem_cons_of_mem _ (List.mem_cons_self ..)))
  | kind kind => exact Or.inl (Or.inr (List.mem_map_of_mem (mem_every kind)))
  | relation relation direction => exact Or.inr (List.mem_map.2 ⟨(direction, relation), mem_every _, rfl⟩)

theorem name_injective : Function.Injective name := by
  have hnodup : (all.map name).Nodup := by decide +kernel
  exact fun a b => List.inj_on_of_nodup_map hnodup (mem_all a) (mem_all b)

end GroupMarker

namespace MemberTree

variable {label : Nat → GroupLabel} {marker : GroupMarker} {ts us : List MemberTree}

/-- The markers of the groups among some nodes. -/
def markersOf (ts : List MemberTree) : List GroupMarker := (ts.filterMap label?).map (·.marker)

/-- The markers of the groups right below a node. -/
def markers (t : MemberTree) : List GroupMarker := markersOf t.children

theorem markersOf_append (ts us : List MemberTree) : markersOf (ts ++ us) = markersOf ts ++ markersOf us := by
  simp [markersOf]

theorem markersOf_plain (plain : ∀ t ∈ ts, t.label? = none) : markersOf ts = [] := by
  rw [markersOf, List.filterMap_eq_nil_iff.2 plain, List.map_nil]

theorem markersOf_branch (hmarker : ∀ k, (label k).marker = marker) (ts : List MemberTree) :
    markersOf (branch label ts) = if ts.isEmpty then [] else [marker] := by
  cases ts with
  | nil => rfl
  | cons t ts => exact congrArg ([·]) (hmarker _)

theorem markersOf_branch_sublist (hmarker : ∀ k, (label k).marker = marker) (ts : List MemberTree) :
    (markersOf (branch label ts)).Sublist [marker] := by
  rw [markersOf_branch hmarker]
  split
  · exact List.nil_sublist _
  · exact List.Sublist.refl _

/-- Branches for things of some kind are marked like those that have a branch. -/
theorem markersOf_branches {α : Type} (label : α → Nat → GroupLabel) (marker : α → GroupMarker)
    (hmarker : ∀ x k, (label x k).marker = marker x) (ts : α → List MemberTree) (xs : List α) :
    markersOf (xs.flatMap fun x => branch (label x) (ts x)) =
      (xs.filter fun x => !(ts x).isEmpty).map marker := by
  induction xs with
  | nil => rfl
  | cons x xs ih =>
    rw [List.flatMap_cons, markersOf_append, markersOf_branch (hmarker x), ih, List.filter_cons]
    cases (ts x).isEmpty <;> rfl

theorem mem_markersOf : marker ∈ markersOf ts ↔ ∃ t ∈ ts, t.label?.map (·.marker) = some marker := by
  simp only [markersOf, List.map_filterMap, List.mem_filterMap]

/-- A group is the only one of its marker where markers do not repeat. -/
theorem filter_marker (hnodup : (markersOf ts).Nodup) {c : MemberTree} (hc : c ∈ ts) {l : GroupLabel}
    (hl : c.label? = some l) : ts.filter (fun t => (t.label?.map (·.marker)) = some l.marker) = [c] := by
  induction ts with
  | nil => cases hc
  | cons t ts ih =>
    rw [← List.singleton_append, markersOf_append, List.nodup_append] at hnodup
    obtain ⟨-, hts, hapart⟩ := hnodup
    rcases List.mem_cons.1 hc with rfl | hc'
    · have hrest : ts.filter (fun t => (t.label?.map (·.marker)) = some l.marker) = [] := by
        refine List.filter_eq_nil_iff.2 fun t ht hmarker => ?_
        refine hapart l.marker (mem_markersOf.2 ⟨c, List.mem_singleton_self c, by rw [hl]; rfl⟩) l.marker ?_ rfl
        exact mem_markersOf.2 ⟨t, ht, of_decide_eq_true hmarker⟩
      rw [List.filter_cons_of_pos (by simp [hl]), hrest]
    · have hother : ¬ t.label?.map (·.marker) = some l.marker := by
        intro hmarker
        refine hapart l.marker (mem_markersOf.2 ⟨t, List.mem_singleton_self t, hmarker⟩) l.marker ?_ rfl
        exact mem_markersOf.2 ⟨c, hc', by rw [hl]; rfl⟩
      rw [List.filter_cons_of_neg (by simpa using hother), ih hts hc']

theorem find?_marker (hnodup : (markersOf ts).Nodup) {c : MemberTree} (hc : c ∈ ts) {l : GroupLabel}
    (hl : c.label? = some l) : ts.find? (fun t => (t.label?.map (·.marker)) = some l.marker) = some c := by
  rw [← List.head?_filter, filter_marker hnodup hc hl]
  rfl

end MemberTree

namespace TreeView

/-- The markers of the groups right below a node, as they are written. -/
def markers (v : TreeView) : List String :=
  v.children.filterMap fun c =>
    match c.item with
    | .group marker .. => some marker
    | _ => none

theorem markers_ofTree (m : ClassModel) (t : MemberTree) :
    (ofTree m t).markers = t.markers.map GroupMarker.name := by
  obtain ⟨item, children⟩ := t
  rw [ofTree, markers, MemberTree.markers, MemberTree.markersOf, ofTrees_eq, List.filterMap_map, List.map_map,
    List.map_filterMap]
  refine List.filterMap_congr fun c _ => ?_
  obtain ⟨item, -⟩ := c
  cases item <;> rfl

mutual

/-- A view has a node for each node of the tree that it shows. -/
theorem nodes_ofTree (m : ClassModel) : ∀ t : MemberTree, (ofTree m t).nodes = t.nodes.map (ofTree m)
  | ⟨item, children⟩ => by
    rw [ofTree, nodes, nodesOf_ofTrees m children, MemberTree.nodes, List.map_cons, ofTree]

theorem nodesOf_ofTrees (m : ClassModel) : ∀ ts : List MemberTree,
    nodesOf (ofTrees m ts) = (MemberTree.nodesOf ts).map (ofTree m)
  | [] => rfl
  | t :: ts => by
    rw [ofTrees, nodesOf, nodes_ofTree m t, nodesOf_ofTrees m ts, MemberTree.nodesOf, List.map_append]

end

end TreeView

namespace MemberTree

/-- Groups right below a node are told apart by their markers, by the texts of these in a view, and when one is looked
for. -/
structure ToldApart (m : ClassModel) (t : MemberTree) : Prop where
  nodup : t.markers.Nodup
  texts : (TreeView.ofTree m t).markers.Nodup
  found : ∀ c ∈ t.children, ∀ l, c.label? = some l → t.group? l.marker = some c

/-- Two groups right below a node are marked as annotations: first that of the annotations of the class, which is the
one found, then that of its members of that kind. No other groups right below share a marker. -/
structure AnnotatedTwice (m : ClassModel) (n : ClassNode) (t : MemberTree) : Prop where
  count : t.markers.count (.kind .annotations) = 2
  others : (t.markers.erase (.kind .annotations)).Nodup
  texts : (TreeView.ofTree m t).markers.count (GroupMarker.kind .annotations).name = 2
  otherTexts : ((TreeView.ofTree m t).markers.erase (GroupMarker.kind .annotations).name).Nodup
  pair : ∃ own given,
    t.children.filter (fun c => (c.label?.map (·.marker)) = some (.kind .annotations)) = [own, given] ∧
    t.group? (.kind .annotations) = some own ∧ own.children.map (·.item) = n.annotations.map .annotationRef ∧
    given.children.map (·.item) = (n.membersOf .annotations).map .element
  found : ∀ c ∈ t.children, ∀ l, c.label? = some l → l.marker ≠ .kind .annotations → t.group? l.marker = some c

theorem toldApart_of_nodup (m : ClassModel) {t : MemberTree} (h : t.markers.Nodup) : ToldApart m t where
  nodup := h
  texts := by
    rw [TreeView.markers_ofTree]
    exact h.map GroupMarker.name_injective
  found _ hc _ hl := find?_marker h hc hl

/-- Below the outer groups only elements have groups right below them, of three different kinds. -/
theorem Inner.markers_nodup {t : MemberTree} (ht : Inner t) : t.markers.Nodup := by
  cases ht with
  | classNode h => exact List.nodup_nil
  | annotationRef a => exact List.nodup_nil
  | element e =>
    rw [markers, children_ofElement, ofDetails_eq, markersOf_append, markersOf_append]
    have hkinds : [GroupMarker.kind .annotations, .kind .parameters, .kind .throws].Nodup := by decide
    exact hkinds.sublist ((markersOf_branch_sublist (fun _ => rfl) _).append
      ((markersOf_branch_sublist (fun _ => rfl) _).append (markersOf_branch_sublist (fun _ => rfl) _)))
  | group counts nonempty plain =>
    rw [markers, markersOf_plain plain]
    exact List.nodup_nil

theorem relationMarkers_nodup (m : ClassModel) (n : ClassNode) : (markersOf (relationBranches m n)).Nodup := by
  have hbranches : markersOf (relationBranches m n) =
      (relationGroups.filter fun x => !((m.sortHandles (n.targets x.2.1 x.1)).map
        fun h => (⟨.classNode h, []⟩ : MemberTree)).isEmpty).map fun x => .relation x.1 x.2.1 :=
    markersOf_branches (fun x : Relation × Direction × String => .ofRelation x.1 x.2.1 x.2.2) _ (fun _ _ => rfl) _
      relationGroups
  have hnodup : (relationGroups.map fun x => GroupMarker.relation x.1 x.2.1).Nodup := by decide
  rw [hbranches]
  exact hnodup.sublist (List.filter_sublist.map _)

/-- The markers of the kinds with members, in their order. -/
def memberMarkers (n : ClassNode) : List GroupMarker :=
  ((every ElementKind).filter fun kind => !(n.membersOf kind).isEmpty).map .kind

theorem memberMarkers_nodup (n : ClassNode) : (memberMarkers n).Nodup :=
  (nodup_every.filter _).map fun _ _ h => GroupMarker.kind.inj h

theorem mem_memberMarkers {n : ClassNode} {kind : ElementKind} :
    .kind kind ∈ memberMarkers n ↔ n.membersOf kind ≠ [] := by
  simp [memberMarkers, mem_every]

theorem markersOf_contentBranches (n : ClassNode) :
    markersOf (contentBranches n) = markersOf (annotationBranch n.annotations) ++ memberMarkers n := by
  have hmembers := markersOf_branches .ofKind .kind (fun _ _ => rfl) (fun kind => ofElements (n.membersOf kind))
    (every ElementKind)
  rw [contentBranches_eq, markersOf_append, hmembers]
  simp [memberMarkers, ofElements_eq]

theorem annotationBranch_of_ne_nil {as : List AnnotationRef} (h : as ≠ []) : annotationBranch as =
    [⟨.group (.ofKind .annotations as.length), as.map fun a => ⟨.annotationRef a, []⟩⟩] := by
  cases as with
  | nil => exact absurd rfl h
  | cons a as => simp [annotationBranch, branch]

/-- Whether annotations of a class meet members that are annotations. -/
def MeetsAnnotations (n : ClassNode) : Prop := n.annotations ≠ [] ∧ n.membersOf .annotations ≠ []

theorem contentMarkers_nodup {n : ClassNode} (h : ¬ MeetsAnnotations n) : (markersOf (contentBranches n)).Nodup := by
  rw [markersOf_contentBranches]
  by_cases hn : n.annotations = []
  · rw [hn]
    exact memberMarkers_nodup n
  · have hmembers : ¬ .kind .annotations ∈ memberMarkers n := fun hmem => h ⟨hn, mem_memberMarkers.1 hmem⟩
    rw [annotationBranch_of_ne_nil hn]
    exact List.nodup_cons.2 ⟨hmembers, memberMarkers_nodup n⟩

/-- The group of the class annotations comes first, and the groups of the members behind it. -/
theorem contentBranches_annotated {n : ClassNode} (h : n.annotations ≠ []) : ∃ g members,
    contentBranches n = g :: members ∧ g.label? = some (.ofKind .annotations n.annotations.length) ∧
      g.children.map (·.item) = n.annotations.map .annotationRef ∧ markersOf members = memberMarkers n ∧
      members = (every ElementKind).flatMap fun kind => branch (.ofKind kind) (ofElements (n.membersOf kind)) := by
  have hchildren := contentBranches_eq n
  have hsplit := markersOf_contentBranches n
  rw [annotationBranch_of_ne_nil h] at hchildren hsplit
  rw [hchildren, markersOf_append] at hsplit
  exact ⟨_, _, hchildren, rfl, by rw [List.map_map]; rfl, List.append_cancel_left hsplit, rfl⟩

/-- The members of a kind have a group among those of the kinds. -/
theorem exists_mem_branches {n : ClassNode} {kind : ElementKind} (h : n.membersOf kind ≠ []) :
    ∃ g ∈ (every ElementKind).flatMap fun kind => branch (.ofKind kind) (ofElements (n.membersOf kind)),
      g.label? = some (.ofKind kind (n.membersOf kind).length) ∧
      g.children.map (·.item) = (n.membersOf kind).map .element := by
  have hbranch : branch (.ofKind kind) (ofElements (n.membersOf kind)) =
      [⟨.group (.ofKind kind (n.membersOf kind).length), ofElements (n.membersOf kind)⟩] := by
    simp [branch, ofElements_eq, h]
  exact ⟨_, List.mem_flatMap.2 ⟨kind, mem_every kind, hbranch ▸ List.mem_singleton_self _⟩, rfl, items_ofElements _⟩

theorem markers_annotated {n : ClassNode} (h : n.annotations ≠ []) :
    (⟨.group .content, contentBranches n⟩ : MemberTree).markers = .kind .annotations :: memberMarkers n := by
  rw [markers, markersOf_contentBranches, annotationBranch_of_ne_nil h]
  rfl

theorem annotatedTwice (m : ClassModel) {n : ClassNode} (h : MeetsAnnotations n) :
    AnnotatedTwice m n ⟨.group .content, contentBranches n⟩ := by
  have hmarkers := markers_annotated h.1
  have hcount : (memberMarkers n).count (.kind .annotations) = 1 :=
    List.count_eq_one_of_mem (memberMarkers_nodup n) (mem_memberMarkers.2 h.2)
  obtain ⟨own, members, hchildren, hlabel, hitems, hmembers, hgroups⟩ := contentBranches_annotated h.1
  obtain ⟨given, hgiven, hlabel', hitems'⟩ := exists_mem_branches h.2
  rw [← hgroups] at hgiven
  refine ⟨?_, ?_, ?_, ?_, ⟨own, given, ?_, ?_, hitems, hitems'⟩, fun c hc l hl hne => ?_⟩
  · rw [hmarkers, List.count_cons_self, hcount]
  · rw [hmarkers, List.erase_cons_head]
    exact memberMarkers_nodup n
  · rw [TreeView.markers_ofTree, List.count_map_of_injective _ _ GroupMarker.name_injective, hmarkers,
      List.count_cons_self, hcount]
  · rw [TreeView.markers_ofTree, ← List.map_erase GroupMarker.name_injective, hmarkers, List.erase_cons_head]
    exact (memberMarkers_nodup n).map GroupMarker.name_injective
  · have hrest := filter_marker (hmembers ▸ memberMarkers_nodup n) hgiven hlabel'
    dsimp only
    rw [hchildren, List.filter_cons_of_pos (by simp [hlabel, GroupLabel.ofKind])]
    exact congrArg (own :: ·) hrest
  · rw [group?, hchildren]
    exact List.find?_cons_of_pos (by simp [hlabel, GroupLabel.ofKind])
  · rw [group?]
    dsimp only at hc ⊢
    rw [hchildren] at hc ⊢
    rcases List.mem_cons.1 hc with rfl | hc
    · obtain rfl := Option.some.inj (hl.symm.trans hlabel)
      exact absurd rfl hne
    · rw [List.find?_cons_of_neg (by simp [hlabel, GroupLabel.ofKind, hne.symm])]
      exact find?_marker (hmembers ▸ memberMarkers_nodup n) hc hl

end MemberTree

namespace ClassModel

open MemberTree

variable {m : ClassModel} {h : Handle} {t : MemberTree}

/-- A node of the tree of a class has markers that do not repeat, or is the content group. -/
theorem mem_nodes_memberTree (ht : t ∈ (m.memberTree h).nodes) :
    t.markers.Nodup ∨ t = ⟨.group .content, contentBranches (m.classAt h)⟩ ∧ contentBranches (m.classAt h) ≠ [] := by
  rcases memberTree_cases ht with rfl | hcontent | ⟨rfl, -⟩ | ht | ht
  · have houter : [GroupMarker.content, .relations].Nodup := by decide
    refine Or.inl (houter.sublist ?_)
    rw [markers, memberTree, markersOf_append]
    exact (markersOf_branch_sublist (fun _ => rfl) _).append (markersOf_branch_sublist (fun _ => rfl) _)
  · exact Or.inr hcontent
  · exact Or.inl (relationMarkers_nodup m (m.classAt h))
  · exact Or.inl ht.inner.markers_nodup
  · exact Or.inl ht.inner.markers_nodup

theorem group?_content_of_ne_nil (hne : contentBranches (m.classAt h) ≠ []) :
    (m.memberTree h).group? .content = some ⟨.group .content, contentBranches (m.classAt h)⟩ := by
  rw [group?_content]
  cases hcontent : contentBranches (m.classAt h) with
  | nil => exact absurd hcontent hne
  | cons t ts => rfl

/-- In any state of any run. -/
theorem run_markers (policy : Policy) (ops : List Operation) (h : Handle) :
    let m := ((empty policy).run ops).1
    (m.treeView h).nodes = (m.memberTree h).nodes.map (TreeView.ofTree m) ∧
      (∀ t ∈ (m.memberTree h).nodes, ToldApart m t ∨
        MeetsAnnotations (m.classAt h) ∧ (m.memberTree h).group? .content = some t) ∧
      (MeetsAnnotations (m.classAt h) →
        ∃ t, (m.memberTree h).group? .content = some t ∧ AnnotatedTwice m (m.classAt h) t) := by
  intro m
  refine ⟨TreeView.nodes_ofTree m _, fun t ht => ?_, fun hmeets => ?_⟩
  · rcases mem_nodes_memberTree ht with hnodup | ⟨rfl, hne⟩
    · exact Or.inl (toldApart_of_nodup m hnodup)
    · by_cases hmeets : MeetsAnnotations (m.classAt h)
      · exact Or.inr ⟨hmeets, group?_content_of_ne_nil hne⟩
      · exact Or.inl (toldApart_of_nodup m (contentMarkers_nodup hmeets))
  · have hne : contentBranches (m.classAt h) ≠ [] := by
      rw [contentBranches, annotationBranch_of_ne_nil hmeets.1]
      exact List.cons_ne_nil _ _
    exact ⟨_, group?_content_of_ne_nil hne, annotatedTwice m hmeets⟩

/-- An annotated class with an annotation for a member. -/
def annotated : List Operation :=
  [.addClass { attributes := { id := "A", name := "A", kind := .classType }, annotations := [⟨"p.M", "M"⟩] } [],
    .addMember 0 { attributes := { id := "N", name := "N", kind := .annotations } },
    .addMember 0 { attributes := { id := "f", name := "f", kind := .methods } }]

theorem run_markers_annotated :
    let m := ((empty .byKind).run annotated).1
    MeetsAnnotations (m.classAt 0) ∧
      ∃ t, (m.memberTree 0).group? .content = some t ∧ AnnotatedTwice m (m.classAt 0) t := by
  intro m
  have hmeets : MeetsAnnotations (m.classAt 0) := by
    have hlengths : (m.classAt 0).annotations.length = 1 ∧ ((m.classAt 0).membersOf .annotations).length = 1 := by
      decide +kernel
    exact ⟨fun h => by simp [h] at hlengths, fun h => by simp [h] at hlengths⟩
  exact ⟨hmeets, (run_markers .byKind annotated 0).2.2 hmeets⟩

/-- Two groups beside each other have one marker there. -/
theorem annotated_markers :
    let m := ((empty .byKind).run annotated).1
    ∃ t ∈ (m.memberTree 0).nodes, ¬ t.markers.Nodup ∧ ¬ (TreeView.ofTree m t).markers.Nodup ∧
      (TreeView.ofTree m t).markers = ["ANNOTATIONS", "METHODS", "ANNOTATIONS"] := by
  intro m
  have hany : ((m.memberTree 0).nodes.any fun t => decide (¬ t.markers.Nodup ∧
      ¬ (TreeView.ofTree m t).markers.Nodup ∧
        (TreeView.ofTree m t).markers = ["ANNOTATIONS", "METHODS", "ANNOTATIONS"])) = true := by decide +kernel
  obtain ⟨t, ht, hmarkers⟩ := List.any_eq_true.1 hany
  exact ⟨t, ht, of_decide_eq_true hmarkers⟩

end ClassModel

end ClassAtlas
