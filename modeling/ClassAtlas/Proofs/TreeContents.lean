import ClassAtlas.Proofs.StrictOrder
import ClassAtlas.Proofs.TreeNodes

/-! The tree of a class shows all that there is to show about the class, once and in order, down to the parameters of
parameters, and nothing else (`run_complete`). Below its two outer groups a tree has nodes of few sorts only (`Inner`):
leaves, elements, and groups of nodes that are no groups. -/

namespace ClassAtlas

namespace Element

/-- The parameters, if the element is an operation. -/
def parameters (e : Element) : List Element := (e.operation?.map (·.1)).getD []

def throwables (e : Element) : List Element := (e.operation?.map (·.2)).getD []

end Element

namespace MemberTree

variable {label : Nat → GroupLabel} {ts : List MemberTree}

/-- Nodes that show items as a group: no node for no items, and otherwise one node with a child for each item, in
order. -/
inductive Groups (label : Nat → GroupLabel) : List TreeItem → List MemberTree → Prop
  | none : Groups label [] []
  | some {items : List TreeItem} {children : List MemberTree} (nonempty : items ≠ [])
      (shown : children.map (·.item) = items) : Groups label items [⟨.group (label items.length), children⟩]

/-- Nodes that show branches as an outer group, which is there for its branches only and does not count them. -/
inductive Outer (label : GroupLabel) : List MemberTree → List MemberTree → Prop
  | none : Outer label [] []
  | some {branches : List MemberTree} (nonempty : branches ≠ []) : Outer label branches [⟨.group label, branches⟩]

/-- What stands below an element: its annotations, parameters and throwables. -/
def ShowsElement (e : Element) (ts : List MemberTree) : Prop :=
  ∃ annotations parameters throwables, ts = annotations ++ parameters ++ throwables ∧
    Groups (.ofKind .annotations) (e.annotations.map .annotationRef) annotations ∧
    Groups (.ofKind .parameters) (e.parameters.map .element) parameters ∧
    Groups (.ofKind .throws) (e.throwables.map .element) throwables

/-- What stands below the content group: the annotations of the class, then its members kind by kind. -/
def ShowsContent (n : ClassNode) (ts : List MemberTree) : Prop :=
  ∃ annotations, ∃ members : ElementKind → List MemberTree, ts = annotations ++ (every ElementKind).flatMap members ∧
    Groups (.ofKind .annotations) (n.annotations.map .annotationRef) annotations ∧
    ∀ kind, Groups (.ofKind kind) ((n.membersOf kind).map .element) (members kind)

/-- What stands below the relations group: the targets of each cell in order, cell by cell. -/
def ShowsRelations (m : ClassModel) (n : ClassNode) (ts : List MemberTree) : Prop :=
  ∃ related : Relation × Direction × String → List MemberTree, ts = relationGroups.flatMap related ∧
    ∀ r d title, ∃ hs : List Handle, hs.Perm (n.targets d r) ∧ Ascending m.compare hs ∧
      Groups (.ofRelation r d title) (hs.map .classNode) (related (r, d, title))

/-- A node has right below it what there is to show about its item, and a group has and counts its children. -/
def Licensed (t : MemberTree) : Prop :=
  match t.item with
  | .classNode _ | .annotationRef _ => t.children = []
  | .element e => ShowsElement e t.children
  | .group label => t.children ≠ [] ∧ label.count = some t.children.length

/-- The nodes below the outer groups. -/
inductive Inner : MemberTree → Prop
  | classNode (h : Handle) : Inner ⟨.classNode h, []⟩
  | annotationRef (a : AnnotationRef) : Inner ⟨.annotationRef a, []⟩
  | element (e : Element) : Inner (ofElement e)
  | group {label : Nat → GroupLabel} {children : List MemberTree} (counts : ∀ k, (label k).count = some k)
      (nonempty : children ≠ []) (plain : ∀ t ∈ children, t.label? = none) :
      Inner ⟨.group (label children.length), children⟩

/-- The nodes of the content of a class: annotations, elements, and the groups of these by kind. -/
inductive InContent : MemberTree → Prop
  | annotationRef (a : AnnotationRef) : InContent ⟨.annotationRef a, []⟩
  | element (e : Element) : InContent (ofElement e)
  | group (kind : ElementKind) {children : List MemberTree} (nonempty : children ≠ [])
      (plain : ∀ t ∈ children, t.label? = none) : InContent ⟨.group (.ofKind kind children.length), children⟩

/-- The nodes of the relations of a class: other classes, and for each cell that has targets the group of these, put in
order. -/
inductive InRelations (m : ClassModel) (n : ClassNode) : MemberTree → Prop
  | classNode (h : Handle) : InRelations m n ⟨.classNode h, []⟩
  | group (r : Relation) (d : Direction) (title : String) (nonempty : n.targets d r ≠ []) :
      InRelations m n ⟨.group (.ofRelation r d title (n.targets d r).length),
        (m.sortHandles (n.targets d r)).map fun h => ⟨.classNode h, []⟩⟩

theorem groups_branch (label : Nat → GroupLabel) {items : List TreeItem} (h : ts.map (·.item) = items) :
    Groups label items (branch label ts) := by
  subst h
  cases ts with
  | nil => exact .none
  | cons t ts =>
    have hbranch : branch label (t :: ts) = [⟨.group (label ((t :: ts).map (·.item)).length), t :: ts⟩] := by
      rw [List.length_map]
      rfl
    rw [hbranch]
    exact .some (List.cons_ne_nil _ _) rfl

theorem outer_branch (label : GroupLabel) (ts : List MemberTree) : Outer label ts (branch (fun _ => label) ts) := by
  cases ts with
  | nil => exact .none
  | cons t ts => exact .some (List.cons_ne_nil t ts)

theorem ofElements_eq (es : List Element) : ofElements es = es.map ofElement := by
  induction es with
  | nil => rfl
  | cons e es ih => rw [ofElements, ih, List.map_cons]

theorem item_ofElement (e : Element) : (ofElement e).item = .element e := by
  cases e
  rfl

theorem items_ofElements (es : List Element) : (ofElements es).map (·.item) = es.map .element := by
  rw [ofElements_eq, List.map_map]
  exact List.map_congr_left fun e _ => item_ofElement e

theorem groups_annotationBranch (as : List AnnotationRef) :
    Groups (.ofKind .annotations) (as.map .annotationRef) (annotationBranch as) :=
  groups_branch _ (by rw [List.map_map]; rfl)

/-- What is no operation has neither parameters nor throwables. -/
theorem ofDetails_eq (e : Element) : ofDetails e.details =
    branch (.ofKind .parameters) (ofElements e.parameters) ++ branch (.ofKind .throws) (ofElements e.throwables) := by
  obtain ⟨attributes, annotations, declaredType, suffix, details⟩ := e
  cases details <;> rfl

theorem children_ofElement (e : Element) :
    (ofElement e).children = annotationBranch e.annotations ++ ofDetails e.details := by
  cases e
  rfl

theorem showsElement_children (e : Element) : ShowsElement e (ofElement e).children := by
  refine ⟨annotationBranch e.annotations, branch (.ofKind .parameters) (ofElements e.parameters),
    branch (.ofKind .throws) (ofElements e.throwables), ?_, groups_annotationBranch _,
    groups_branch _ (items_ofElements _), groups_branch _ (items_ofElements _)⟩
  rw [children_ofElement, ofDetails_eq, List.append_assoc]

/-- The kinds without a list of members show nothing. -/
theorem contentBranches_eq (n : ClassNode) : contentBranches n = annotationBranch n.annotations ++
    (every ElementKind).flatMap fun kind => branch (.ofKind kind) (ofElements (n.membersOf kind)) := by
  rw [contentBranches, ClassNode.memberLists, EnumMap.toList]
  congr 1
  induction every ElementKind with
  | nil => rfl
  | cons kind kinds ih =>
    rw [List.map_cons, List.filterMap_cons, List.flatMap_cons, ← ih]
    cases hlist : n.members.get kind with
    | none => simp [ClassNode.membersOf, hlist, ofElements, branch]
    | some list => simp [ClassNode.membersOf, hlist]

theorem showsContent_contentBranches (n : ClassNode) : ShowsContent n (contentBranches n) :=
  ⟨_, _, contentBranches_eq n, groups_annotationBranch _, fun _ => groups_branch _ (items_ofElements _)⟩

theorem showsRelations_relationBranches {m : ClassModel} (ht : Std.TransCmp m.policy.compare) (n : ClassNode) :
    ShowsRelations m n (relationBranches m n) := by
  refine ⟨relationBranch m n, rfl, fun r d title => ⟨m.sortHandles (n.targets d r), sortBy_perm _ _,
    ClassModel.ascending_sortHandles ht _, groups_branch _ ?_⟩⟩
  rw [List.map_map]
  rfl

section Inner

variable {t : MemberTree}

/-- A node of a branch is its group or stands below it. -/
theorem mem_nodes_branch {b u : MemberTree} (hb : b ∈ branch label ts) (hu : u ∈ b.nodes) :
    (u = ⟨.group (label ts.length), ts⟩ ∧ ts ≠ []) ∨ ∃ t ∈ ts, u ∈ t.nodes := by
  rw [branch] at hb
  split at hb
  · cases hb
  · rename_i hne
    obtain rfl := List.mem_singleton.1 hb
    rw [nodes_eq] at hu
    rcases List.mem_cons.1 hu with rfl | hu
    · exact Or.inl ⟨rfl, fun h => hne (List.isEmpty_iff.2 h)⟩
    · exact Or.inr (List.mem_flatMap.1 hu)

theorem inContent_branch (kind : ElementKind) (plain : ∀ t ∈ ts, t.label? = none)
    (below : ∀ t ∈ ts, ∀ u ∈ t.nodes, InContent u) : ∀ b ∈ branch (.ofKind kind) ts, ∀ u ∈ b.nodes, InContent u := by
  intro b hb u hu
  rcases mem_nodes_branch hb hu with ⟨rfl, hne⟩ | ⟨t, ht, hu⟩
  · exact .group kind hne plain
  · exact below t ht u hu

theorem inContent_annotationBranch (as : List AnnotationRef) :
    ∀ b ∈ annotationBranch as, ∀ u ∈ b.nodes, InContent u := by
  refine inContent_branch _ (fun t ht => ?_) fun t ht u hu => ?_
  · obtain ⟨a, -, rfl⟩ := List.mem_map.1 ht
    rfl
  · obtain ⟨a, -, rfl⟩ := List.mem_map.1 ht
    obtain rfl := List.mem_singleton.1 hu
    exact .annotationRef a

theorem plain_ofElements (es : List Element) : ∀ t ∈ ofElements es, t.label? = none := by
  intro t ht
  rw [ofElements_eq] at ht
  obtain ⟨e, -, rfl⟩ := List.mem_map.1 ht
  rw [label?, item_ofElement]

mutual

theorem inContent_ofElement : ∀ e : Element, ∀ u ∈ (ofElement e).nodes, InContent u
  | ⟨attributes, annotations, declaredType, suffix, details⟩ => by
    intro u hu
    rw [nodes_eq] at hu
    rcases List.mem_cons.1 hu with rfl | hu
    · exact .element _
    · obtain ⟨b, hb, hu⟩ := List.mem_flatMap.1 hu
      rcases List.mem_append.1 hb with hb | hb
      · exact inContent_annotationBranch annotations b hb u hu
      · exact inContent_ofDetails details b hb u hu

theorem inContent_ofDetails : ∀ details : Details Element, ∀ b ∈ ofDetails details, ∀ u ∈ b.nodes, InContent u
  | .plain => by
    intro b hb
    cases hb
  | .operation parameters throwables => by
    intro b hb
    rw [ofDetails] at hb
    rcases List.mem_append.1 hb with hb | hb
    · exact inContent_branch _ (plain_ofElements _) (inContent_ofElements parameters) b hb
    · exact inContent_branch _ (plain_ofElements _) (inContent_ofElements throwables) b hb

theorem inContent_ofElements : ∀ es : List Element, ∀ t ∈ ofElements es, ∀ u ∈ t.nodes, InContent u
  | [] => by
    intro t ht
    cases ht
  | e :: es => by
    intro t ht
    rw [ofElements] at ht
    rcases List.mem_cons.1 ht with rfl | ht
    · exact inContent_ofElement e
    · exact inContent_ofElements es t ht

end

theorem inContent_contentBranches (n : ClassNode) : ∀ b ∈ contentBranches n, ∀ u ∈ b.nodes, InContent u := by
  intro b hb
  rw [contentBranches_eq] at hb
  rcases List.mem_append.1 hb with hb | hb
  · exact inContent_annotationBranch _ b hb
  · obtain ⟨kind, -, hb⟩ := List.mem_flatMap.1 hb
    exact inContent_branch _ (plain_ofElements _) (inContent_ofElements _) b hb

theorem inRelations_relationBranches (m : ClassModel) (n : ClassNode) :
    ∀ b ∈ relationBranches m n, ∀ u ∈ b.nodes, InRelations m n u := by
  intro b hb u hu
  obtain ⟨⟨r, d, title⟩, -, hb⟩ := List.mem_flatMap.1 hb
  rcases mem_nodes_branch hb hu with ⟨rfl, hne⟩ | ⟨t, ht, hu⟩
  · have hgroup : InRelations m n _ := .group r d title fun hnil => hne (by rw [hnil]; rfl)
    rwa [List.length_map, ClassModel.sortHandles, length_sortBy]
  · obtain ⟨h, -, rfl⟩ := List.mem_map.1 ht
    obtain rfl := List.mem_singleton.1 hu
    exact .classNode h

theorem InContent.inner (ht : InContent t) : Inner t := by
  cases ht with
  | annotationRef a => exact .annotationRef a
  | element e => exact .element e
  | group kind nonempty plain => exact .group (fun _ => rfl) nonempty plain

theorem InRelations.inner {m : ClassModel} {n : ClassNode} (ht : InRelations m n t) : Inner t := by
  cases ht with
  | classNode h => exact .classNode h
  | group r d title nonempty =>
    have hlength : ((m.sortHandles (n.targets d r)).map fun h => (⟨.classNode h, []⟩ : MemberTree)).length =
        (n.targets d r).length := by rw [List.length_map, ClassModel.sortHandles, length_sortBy]
    rw [← hlength]
    refine .group (fun _ => rfl) (fun hnil => nonempty ?_) fun t ht => ?_
    · rw [← List.length_eq_zero_iff, ← hlength, hnil, List.length_nil]
    · obtain ⟨h, -, rfl⟩ := List.mem_map.1 ht
      rfl

theorem Inner.licensed (ht : Inner t) : t.Licensed := by
  cases ht with
  | classNode h => rfl
  | annotationRef a => rfl
  | element e =>
    rw [Licensed, item_ofElement]
    exact showsElement_children e
  | group counts nonempty plain => exact ⟨nonempty, counts _⟩

end Inner

/-- The display has one place for each of the fourteen cells. -/
theorem relationGroups_perm : (relationGroups.map fun (r, d, _) => (d, r)).Perm (every Slot) := by decide

end MemberTree

namespace ClassModel

open MemberTree

/-- A node of the tree of a class is the class, an outer group, or a node of the content or of the relations. -/
theorem memberTree_cases {m : ClassModel} {h : Handle} {t : MemberTree} (ht : t ∈ (m.memberTree h).nodes) :
    t = m.memberTree h ∨
    (t = ⟨.group .content, contentBranches (m.classAt h)⟩ ∧ contentBranches (m.classAt h) ≠ []) ∨
    (t = ⟨.group .relations, relationBranches m (m.classAt h)⟩ ∧ relationBranches m (m.classAt h) ≠ []) ∨
    InContent t ∨ InRelations m (m.classAt h) t := by
  rw [nodes_eq] at ht
  rcases List.mem_cons.1 ht with rfl | ht
  · exact Or.inl rfl
  · right
    obtain ⟨b, hb, ht⟩ := List.mem_flatMap.1 ht
    rcases List.mem_append.1 hb with hb | hb <;> rcases mem_nodes_branch hb ht with hgroup | ⟨c, hc, ht⟩
    · exact Or.inl hgroup
    · exact Or.inr (Or.inr (Or.inl (inContent_contentBranches _ c hc t ht)))
    · exact Or.inr (Or.inl hgroup)
    · exact Or.inr (Or.inr (Or.inr (inRelations_relationBranches m _ c hc t ht)))

/-- The tree of a class shows its content and its relations completely, at any depth. -/
def ShownCompletely (m : ClassModel) (h : Handle) : Prop :=
  ∃ content relations contentGroup relationsGroup,
    m.memberTree h = ⟨.classNode h, contentGroup ++ relationsGroup⟩ ∧
    Outer .content content contentGroup ∧ ShowsContent (m.classAt h) content ∧
    Outer .relations relations relationsGroup ∧ ShowsRelations m (m.classAt h) relations ∧
    ∀ b ∈ content ++ relations, ∀ u ∈ b.nodes, u.Licensed

theorem shownCompletely {m : ClassModel} (ht : Std.TransCmp m.policy.compare) (h : Handle) : m.ShownCompletely h := by
  refine ⟨contentBranches (m.classAt h), relationBranches m (m.classAt h), _, _, rfl, outer_branch _ _,
    showsContent_contentBranches _, outer_branch _ _, showsRelations_relationBranches ht _, fun b hb u hu => ?_⟩
  rcases List.mem_append.1 hb with hb | hb
  · exact (inContent_contentBranches _ b hb u hu).inner.licensed
  · exact (inRelations_relationBranches m _ b hb u hu).inner.licensed

/-- In any state of any run, for cells that are frozen and cells that are open. -/
theorem run_complete (policy : Policy) (preorder : Std.TransCmp policy.compare) (ops : List Operation) (h : Handle) :
    let m := ((empty policy).run ops).1
    m.ShownCompletely h ∧ (relationGroups.map fun (r, d, _) => (d, r)).Perm (every Slot) :=
  ⟨shownCompletely ((run_moves (empty policy) ops).policy ▸ preorder) h, relationGroups_perm⟩

/-- An annotated class has an operation that takes an operation, which takes one more. Its cells fill as its members are
finished, before and after. -/
def callbacks : List Operation :=
  let marked (id : String) (kind : ElementKind) (details : Details Element) : Element :=
    { attributes := { id := id, name := id, kind := kind }, annotations := [⟨"p.M", "M"⟩, ⟨"p.N", "N"⟩],
      details := details }
  let innermost := marked "h" .methods (.operation [] [marked "E" .throws .plain])
  let inner := marked "g" .parameters (.operation [innermost, marked "x" .parameters .plain] [])
  [.addClass (marked "A" .classType .plain) [], .addClass (marked "C" .classType .plain) [],
    .addClass (marked "B" .classType .plain) [], .addMember 0 (marked "f" .methods (.operation [inner] [inner])),
    .addMember 0 (marked "v" .fields .plain), .addRelation 0 .superClass 1, .addRelation 1 .association 0,
    .finishMembers 0, .addRelation 2 .association 0, .addRelation 0 .throwsDependency 0]

theorem run_complete_callbacks :
    Std.TransCmp Policy.byName.compare ∧ (((empty .byName).run callbacks).1.memberTree 0).nodes.length = 59 ∧
      (((empty .byName).run callbacks).1.classAt 0).targets .inbound .association = [1, 2] ∧
      ((empty .byName).run callbacks).1.ShownCompletely 0 :=
  ⟨Policy.byName_strict.trans, by decide +kernel, by decide +kernel,
    (run_complete .byName Policy.byName_strict.trans callbacks 0).1⟩

end ClassModel

end ClassAtlas
