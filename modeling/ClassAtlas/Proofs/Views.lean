import ClassAtlas.MemberTree
import ClassAtlas.Proofs.Ledgers
import ClassAtlas.Summary
import ClassAtlas.UmlTable
import Mathlib.Algebra.Ring.Nat

/-! The summary, the member tree and the UML table of a class count alike (`run_agreeing`). A group of the tree counts
what its cell or its list of members holds, so a sum of such counts is one over cells or lists. The summary counts
usages by the ledger, which makes no difference where no violation came between a note and its cell. -/

namespace ClassAtlas

namespace MemberTree

/-- What the chosen groups among some nodes count together. -/
def total (chosen : GroupMarker → Bool) (ts : List MemberTree) : Nat :=
  (((ts.filterMap label?).filter fun l => chosen l.marker).map fun l => l.count.getD 0).sum

/-- What the chosen groups right below the group of a marker count together, and zero where that group is absent. -/
def totalIn (t : MemberTree) (outer : GroupMarker) (chosen : GroupMarker → Bool) : Nat :=
  match t.group? outer with
  | some g => total chosen g.children
  | none => 0

/-- The groups of the five relations besides those of super types, in one direction. -/
def isUsage (d : Direction) : GroupMarker → Bool
  | .relation r d' => d' = d && r ≠ .superClass && r ≠ .superInterface
  | _ => false

/-- The groups of super classes and super interfaces, in one direction. -/
def isSuperType (d : Direction) : GroupMarker → Bool
  | .relation r d' => d' = d && (r = .superClass || r = .superInterface)
  | _ => false

/-- The groups of the five kinds of members that have sections in a UML table. -/
def isSection : GroupMarker → Bool
  | .kind k => k ∈ [ElementKind.constants, .fields, .properties, .constructors, .methods]
  | _ => false

variable {chosen : GroupMarker → Bool} {m : ClassModel} {n : ClassNode} {h : Handle}

theorem total_append (ts us : List MemberTree) : total chosen (ts ++ us) = total chosen ts + total chosen us := by
  simp [total]

theorem total_flatMap {α : Type} (f : α → List MemberTree) (xs : List α) :
    total chosen (xs.flatMap f) = (xs.map fun x => total chosen (f x)).sum := by
  induction xs with
  | nil => rfl
  | cons x xs ih => rw [List.flatMap_cons, total_append, ih, List.map_cons, List.sum_cons]

/-- A branch counts its children, and is absent where it has none. -/
theorem total_branch (label : Nat → GroupLabel) (marker : GroupMarker) (hmarker : ∀ k, (label k).marker = marker)
    (hcount : ∀ k, (label k).count = some k) (ts : List MemberTree) :
    total chosen (branch label ts) = if chosen marker then ts.length else 0 := by
  cases ts with
  | nil => simp [branch, total]
  | cons t ts =>
    by_cases hc : chosen marker
    · simp [branch, total, label?, hmarker, hcount, hc]
    · simp [branch, total, label?, hmarker, hc]

theorem length_ofElements (xs : List Element) : (ofElements xs).length = xs.length := by
  induction xs with
  | nil => rfl
  | cons x xs ih => rw [ofElements, List.length_cons, ih, List.length_cons]

theorem total_relationBranches (m : ClassModel) (n : ClassNode) : total chosen (relationBranches m n) =
    (relationGroups.map fun (r, d, _) => if chosen (.relation r d) then n.count d r else 0).sum := by
  rw [relationBranches, total_flatMap]
  refine congrArg List.sum (List.map_congr_left fun (r, d, title) _ => ?_)
  rw [relationBranch, total_branch _ (.relation r d) (fun _ => rfl) fun _ => rfl, List.length_map,
    ClassModel.sortHandles, length_sortBy]
  rfl

/-- The kinds without a list of members count nothing. -/
theorem total_memberLists (n : ClassNode) :
    total chosen (n.memberLists.flatMap fun (kind, list) => branch (.ofKind kind) (ofElements list)) =
      ((every ElementKind).map fun k => if chosen (.kind k) then (n.membersOf k).length else 0).sum := by
  rw [total_flatMap, ClassNode.memberLists, EnumMap.toList]
  induction every ElementKind with
  | nil => rfl
  | cons k ks ih =>
    rw [List.map_cons, List.filterMap_cons, List.map_cons, List.sum_cons, ← ih]
    cases hlist : n.members.get k with
    | none => simp [ClassNode.membersOf, hlist]
    | some list =>
      have hbranch : total chosen (branch (.ofKind k) (ofElements list)) =
          if chosen (.kind k) then list.length else 0 := by
        rw [total_branch _ (.kind k) (fun _ => rfl) fun _ => rfl, length_ofElements]
      simp [ClassNode.membersOf, hlist, hbranch]

theorem total_contentBranches (n : ClassNode) : total chosen (contentBranches n) =
    (if chosen (.kind .annotations) then n.annotations.length else 0) +
      ((every ElementKind).map fun k => if chosen (.kind k) then (n.membersOf k).length else 0).sum := by
  rw [contentBranches, total_append, total_memberLists, annotationBranch,
    total_branch _ (.kind .annotations) (fun _ => rfl) fun _ => rfl, List.length_map]

theorem group?_relations (m : ClassModel) (h : Handle) :
    (m.memberTree h).group? .relations = (branch (fun _ => .relations) (relationBranches m (m.classAt h))).head? := by
  unfold ClassModel.memberTree
  dsimp only
  generalize contentBranches (m.classAt h) = content
  cases content <;> cases relationBranches m (m.classAt h) <;> rfl

theorem group?_content (m : ClassModel) (h : Handle) :
    (m.memberTree h).group? .content = (branch (fun _ => .content) (contentBranches (m.classAt h))).head? := by
  unfold ClassModel.memberTree
  dsimp only
  generalize contentBranches (m.classAt h) = content
  cases content <;> cases relationBranches m (m.classAt h) <;> rfl

/-- A group that is absent holds nothing. -/
theorem totalIn_of_group? {t : MemberTree} {outer : GroupMarker} {label : Nat → GroupLabel} {ts : List MemberTree}
    (hgroup : t.group? outer = (branch label ts).head?) : t.totalIn outer chosen = total chosen ts := by
  rw [totalIn, hgroup]
  cases ts <;> rfl

theorem totalIn_relations (m : ClassModel) (h : Handle) :
    (m.memberTree h).totalIn .relations chosen = total chosen (relationBranches m (m.classAt h)) :=
  totalIn_of_group? (group?_relations m h)

theorem totalIn_content (m : ClassModel) (h : Handle) :
    (m.memberTree h).totalIn .content chosen = total chosen (contentBranches (m.classAt h)) :=
  totalIn_of_group? (group?_content m h)

theorem total_isUsage (m : ClassModel) (n : ClassNode) (d : Direction) :
    total (isUsage d) (relationBranches m n) = n.count d .innerClass + n.count d .association +
      n.count d .dependency + n.count d .throwsDependency + n.count d .annotationDependency := by
  rw [total_relationBranches]
  cases d
  · simp [relationGroups, isUsage]
    omega
  · simp [relationGroups, isUsage]
    omega

theorem total_isSuperType (m : ClassModel) (n : ClassNode) (d : Direction) :
    total (isSuperType d) (relationBranches m n) = n.count d .superClass + n.count d .superInterface := by
  rw [total_relationBranches]
  cases d
  · simp [relationGroups, isSuperType]
  · simp [relationGroups, isSuperType]
    omega

theorem total_isSection (n : ClassNode) : total isSection (contentBranches n) = n.summary.members := by
  rw [total_contentBranches]
  simp [every, Enumeration.all, isSection, ElementKind.umlKinds, ClassNode.summary]

end MemberTree

namespace ClassModel

open MemberTree

/-- The rows of a table are the members of the kinds it has sections for. -/
theorem rows_umlSection (n : ClassNode) (kinds : List ElementKind) :
    ((kinds.filterMap (umlSection n)).map fun s => s.rows.length).sum =
      kinds.foldr (fun kind total => (n.membersOf kind).length + total) 0 := by
  induction kinds with
  | nil => rfl
  | cons kind kinds ih =>
    rw [List.filterMap_cons, List.foldr_cons, ← ih]
    cases hmembers : n.membersOf kind with
    | nil => simp [umlSection, hmembers]
    | cons x xs => simp [umlSection, hmembers]

theorem umlParents_eq_nil_iff (m : ClassModel) (n : ClassNode) :
    m.umlParents n = [] ↔ n.count .outbound .superClass + n.count .outbound .superInterface = 0 := by
  unfold umlParents ClassNode.count
  cases hsuper : n.targets .outbound .superClass with
  | nil => simp
  | cons t ts => simp

/-- The summary of a class, its member tree and its UML table show the same numbers. -/
structure Agreeing (m : ClassModel) (h : Handle) : Prop where
  uses : (m.classAt h).summary.uses = (m.memberTree h).totalIn .relations (isUsage .outbound)
  usedBy : (m.classAt h).summary.usedBy = (m.memberTree h).totalIn .relations (isUsage .inbound)
  parents : (m.classAt h).summary.parents = (m.memberTree h).totalIn .relations (isSuperType .outbound)
  children : (m.classAt h).summary.children = (m.memberTree h).totalIn .relations (isSuperType .inbound)
  members : (m.classAt h).summary.members = (m.memberTree h).totalIn .content isSection
  rows : (m.classAt h).summary.members = ((m.umlTable h).sections.map fun s => s.rows.length).sum
  parentless : (m.umlTable h).parents = [] ↔ (m.classAt h).summary.parents = 0

/-- Of a ledger that is shared out among its cells the usages are the entries of five cells. -/
theorem usage_eq_totalIn {m : ClassModel} {h : Handle} {d : Direction}
    (hperm : ((m.classAt h).ledger d).Perm ((m.classAt h).checkedTargets d)) :
    (m.classAt h).usage d = (m.memberTree h).totalIn .relations (isUsage d) := by
  rw [totalIn_relations, total_isUsage, ClassNode.usage, hperm.length_eq, ClassNode.checkedTargets, List.length_append,
    List.length_append]
  rfl

theorem run_agreeing (policy : Policy) (ops : List Operation)
    (calm : ∀ reply ∈ ((empty policy).run ops).2, reply.isViolation = false) (h : Handle) :
    Agreeing ((empty policy).run ops).1 h := by
  have hperm := (run_calm calm).booked_perm h
  refine ⟨usage_eq_totalIn (hperm .outbound), usage_eq_totalIn (hperm .inbound), ?_, ?_, ?_, ?_, ?_⟩
  · rw [totalIn_relations, total_isSuperType]
    rfl
  · rw [totalIn_relations, total_isSuperType]
    rfl
  · rw [totalIn_content, total_isSection]
  · exact (rows_umlSection _ _).symm
  · exact umlParents_eq_nil_iff _ _

/-- A class with members of seven kinds, five of them in sections, that extends a class and realizes an interface, and
is related to both through more than one checkable relation. -/
def fullHouse : List Operation :=
  let named (id : String) (kind : ElementKind) : Element := { attributes := { id := id, name := id, kind := kind } }
  [.addClass (named "A" .classType) [], .addClass (named "B" .classType) [], .addClass (named "I" .interface) [],
    .addMember 0 (named "x" .fields), .addMember 0 (named "f" .methods), .addMember 0 (named "g" .methods),
    .addMember 0 (named "K" .constants), .addMember 0 (named "p" .properties), .addMember 0 (named "A()" .constructors),
    .addMember 0 (named "E" .extends), .addMember 0 (named "N" .annotations), .addRelation 0 .superClass 1,
    .addSuperInterface 0 2, .addRelation 0 .association 1, .addRelation 0 .innerClass 1, .addRelation 0 .dependency 2,
    .addRelation 0 .throwsDependency 1, .finishMembers 0, .finishMembers 0, .finishAllMembers, .finishRelations 0]

theorem run_agreeing_fullHouse :
    (∀ reply ∈ ((empty .byKind).run fullHouse).2, reply.isViolation = false) ∧
      (((empty .byKind).run fullHouse).1.classAt 0).summary = ⟨6, 2, 0, 0, 3⟩ ∧
      ∀ h, Agreeing ((empty .byKind).run fullHouse).1 h :=
  have calm : ∀ reply ∈ ((empty .byKind).run fullHouse).2, reply.isViolation = false := by decide +kernel
  ⟨calm, by decide +kernel, run_agreeing .byKind fullHouse calm⟩

end ClassModel

end ClassAtlas
