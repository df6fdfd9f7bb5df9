import ClassAtlas.Proofs.TreeContents
import ClassAtlas.Proofs.Unfolding

/-! Under the named policies the comparison is a strict total order on the classes of a model, since no two classes
share an id, and a set of classes has one listing in order (`listing_of_ascending`). So nothing that is listed in order,
frozen cells, roots, subclasses in a hierarchy and related classes in a tree, depends on the order in which it came
(`run_strictlyOrdered`). -/

namespace ClassAtlas

namespace ClassModel

open MemberTree

variable {m : ClassModel} {as bs : List Handle} {h : Handle}

/-- The second list has the classes of the first, which form a set, in strictly increasing order, and it is the only
list that has each of them once and none before a lesser one. -/
structure Listing (m : ClassModel) (as hs : List Handle) : Prop where
  perm : hs.Perm as
  increasing : hs.Pairwise fun a b => m.compare a b = .lt
  only : ∀ other : List Handle, other.Nodup → (∀ h, h ∈ other ↔ h ∈ as) → Ascending m.compare other → other = hs

/-- The comparison is a strict total order on the classes of a model, and they stand in that order wherever they are
listed in order. Working a hierarchy out lists them only where it comes to an end. -/
structure StrictlyOrdered (m : ClassModel) : Prop where
  eq_iff : ∀ a < m.size, ∀ b < m.size, m.compare a b = .eq ↔ a = b
  swap : ∀ a b, m.compare b a = (m.compare a b).swap
  trans : ∀ a b c, m.compare a b = .lt → m.compare b c = .lt → m.compare a c = .lt
  frozen : ∀ h d r, ((m.classAt h).cell d r).frozen = true →
    Listing m ((m.classAt h).targets d r) ((m.classAt h).targets d r)
  roots : Listing m (m.handles.filter fun h => isRoot (m.classAt h)) m.roots
  children : ∀ r t, m.Unfolds r t → t = m.hierarchy r ∧
    ∀ s ∈ t.nodes, Listing m (m.subclasses s.handle) (s.children.map (·.handle))
  leaves : ∀ h, ∀ g ∈ (m.memberTree h).nodes, ∀ l r d, g.label? = some l → l.marker = .relation r d →
    ∃ hs, g.children = hs.map (fun x => ⟨.classNode x, []⟩) ∧ Listing m ((m.classAt h).targets d r) hs

section Strict

variable (hm : WellFormed m) (hstrict : m.policy.Strict)

include hm hstrict

theorem listing_of_ascending (hperm : bs.Perm as) (hasc : Ascending m.compare bs)
    (hnodup : as.Nodup) (hin : ∀ a ∈ as, a < m.size) : Listing m as bs := by
  have hnodup' : bs.Nodup := hperm.nodup_iff.2 hnodup
  have hin' : ∀ b ∈ bs, b < m.size := fun b hb => hin b (hperm.mem_iff.1 hb)
  refine ⟨hperm, increasing_of_ascending hm hstrict hasc hnodup' hin', fun other hother hmem hasc' => ?_⟩
  have hsame : other.Perm bs := by
    rw [List.perm_ext_iff_of_nodup hother hnodup']
    intro h
    rw [hmem, hperm.mem_iff]
  exact eq_of_ascending hm hstrict hasc' hasc hsame fun a ha => hin' a (hsame.mem_iff.1 ha)

theorem listing_sortHandles (hnodup : as.Nodup) (hin : ∀ a ∈ as, a < m.size) :
    Listing m as (m.sortHandles as) :=
  listing_of_ascending hm hstrict (sortBy_perm _ _) (ascending_sortHandles hstrict.trans as) hnodup hin

/-- What the targets of a cell are when they have been put in order. -/
theorem listing_targets (hbooked : ∀ h, (m.classAt h).Booked) (h : Handle) (d : Direction) (r : Relation) :
    Listing m ((m.classAt h).targets d r) (m.sortHandles ((m.classAt h).targets d r)) :=
  listing_sortHandles hm hstrict ((hbooked h).nodup d r) fun t ht => (hm.targets h d r t ht).1

theorem listing_roots : Listing m (m.handles.filter fun h => isRoot (m.classAt h)) m.roots := by
  have hhandles : (m.classes.filter isRoot).map (·.handle) = m.handles.filter fun h => isRoot (m.classAt h) := by
    rw [handles_filter hm.toClosed, handles_eq_range hm.toClosed]
  rw [roots, hhandles, handles_eq_range hm.toClosed]
  refine listing_sortHandles hm hstrict (List.nodup_range.filter _) fun a ha => ?_
  exact List.mem_range.1 (List.mem_filter.1 ha).1

/-- No other nodes of the tree of a class are groups of a relation. -/
theorem listing_leaves (hbooked : ∀ h, (m.classAt h).Booked) {g : MemberTree} (hg : g ∈ (m.memberTree h).nodes)
    {l : GroupLabel} {r : Relation} {d : Direction} (hl : g.label? = some l) (hmarker : l.marker = .relation r d) :
    ∃ hs, g.children = hs.map (fun x => ⟨.classNode x, []⟩) ∧ Listing m ((m.classAt h).targets d r) hs := by
  rcases memberTree_cases hg with rfl | ⟨rfl, -⟩ | ⟨rfl, -⟩ | hcontent | hrelations
  · cases hl
  · cases hl
    cases hmarker
  · cases hl
    cases hmarker
  · cases hcontent with
    | annotationRef a => cases hl
    | element e =>
      rw [label?, item_ofElement] at hl
      cases hl
    | group kind nonempty plain =>
      cases hl
      cases hmarker
  · cases hrelations with
    | classNode x => cases hl
    | group r' d' title nonempty =>
      cases hl
      cases hmarker
      exact ⟨_, rfl, listing_targets hm hstrict hbooked h d r⟩

theorem strictlyOrdered (hfrozen : FrozenAscending m) (hbooked : ∀ h, (m.classAt h).Booked) : StrictlyOrdered m := by
  have hcompare := transCmp_compare hstrict.trans
  refine ⟨fun a ha b hb => ⟨eq_of_compare_eq hm hstrict ha hb, ?_⟩, fun a b => hcompare.eq_swap,
    fun a b c hab hbc => Std.TransCmp.lt_trans hab hbc, fun h d r hf => ?_, listing_roots hm hstrict,
    fun r t hu => ⟨hu.eq_hierarchy hm, fun s hs => ?_⟩, fun h g hg l r d => listing_leaves hm hstrict hbooked hg⟩
  · rintro rfl
    exact Std.ReflCmp.compare_self
  · exact listing_of_ascending hm hstrict (List.Perm.refl _) (hfrozen h d r hf) ((hbooked h).nodup d r)
      fun t ht => (hm.targets h d r t ht).1
  · rw [hu.children_eq hs]
    exact listing_targets hm hstrict hbooked s.handle .inbound .superClass

end Strict

/-- In any state of any run, after violations too. -/
theorem run_strictlyOrdered {policy : Policy} (hpolicy : policy = .byKind ∨ policy = .byName)
    (ops : List Operation) : StrictlyOrdered ((empty policy).run ops).1 := by
  have hmoves := run_moves (empty policy) ops
  have hpolicy : policy.Strict := Policy.strict_of_eq hpolicy
  have hstrict : ((empty policy).run ops).1.policy.Strict := by rwa [hmoves.policy]
  exact strictlyOrdered (run_wellFormed policy ops) hstrict (hmoves.frozenAscending hpolicy.trans) hmoves.booked

/-- Three classes below `Base`, on which it depends, two of them of one name, come against the order. Once they are
finished one is to extend another, a violation, and a class comes that goes before them all. -/
def latecomers : List Operation :=
  let named (id name : String) : Element := { attributes := { id := id, name := name, kind := .classType } }
  [.addClass (named "p.Base" "Base") [], .addClass (named "q.Leaf" "Leaf") [], .addClass (named "p.Leaf" "Leaf") [],
    .addClass (named "r.Kite" "Kite") [], .addRelation 1 .superClass 0, .addRelation 2 .superClass 0,
    .addRelation 3 .superClass 0, .addRelation 0 .dependency 1, .addRelation 0 .dependency 2,
    .addRelation 0 .dependency 3, .finishAllMembers, .finishAllRelations, .addRelation 3 .superClass 1,
    .addClass (named "z.Ape" "Ape") []]

theorem run_strictlyOrdered_latecomers :
    let m := ((empty .byKind).run latecomers).1
    ((empty .byKind).run latecomers).2.countP Reply.isViolation = 1 ∧
      (m.classAt 0).targets .outbound .dependency = [3, 2, 1] ∧ (m.classAt 0).targets .inbound .superClass = [1, 2, 3] ∧
      m.roots = [4, 0] ∧ (m.hierarchy 0).children.map (·.handle) = [3, 2, 1] ∧ StrictlyOrdered m :=
  ⟨by decide +kernel, by decide +kernel, by decide +kernel, by decide +kernel, by decide +kernel,
    run_strictlyOrdered (Or.inl rfl) latecomers⟩

end ClassModel

end ClassAtlas
