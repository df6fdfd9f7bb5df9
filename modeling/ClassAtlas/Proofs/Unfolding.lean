import ClassAtlas.Proofs.Forest
import ClassAtlas.Proofs.Ledgers
import ClassAtlas.Proofs.StableSort
import Mathlib.Data.List.Chain
import Mathlib.Data.Set.Card

/-! The nodes of the hierarchy below a class stand for the ways down from it, one for each (`mem_paths_hierarchy`,
`nodup_paths_hierarchy`), so a class has as many nodes as there are ways to it, and the count of a node is a number of
ways and not of classes. Working the hierarchy out ends everywhere exactly if there is no cycle
(`unfolds_everywhere_iff`). -/

namespace ClassAtlas

namespace HierarchyTree

mutual

/-- The trees within a tree, itself among them, each before those below it. -/
def nodes : HierarchyTree → List HierarchyTree
  | ⟨h, count, children⟩ => ⟨h, count, children⟩ :: nodesOf children

def nodesOf : List HierarchyTree → List HierarchyTree
  | [] => []
  | t :: ts => nodes t ++ nodesOf ts

end

mutual

/-- For each node the classes on the way to it, from the top of the tree to the node itself. -/
def paths : HierarchyTree → List (List Handle)
  | ⟨h, _, children⟩ => [h] :: (pathsOf children).map (h :: ·)

def pathsOf : List HierarchyTree → List (List Handle)
  | [] => []
  | t :: ts => paths t ++ pathsOf ts

end

/-- The greatest number of steps from the top down to a node. -/
def depth (t : HierarchyTree) : Nat := (t.paths.map fun path => path.length - 1).foldr max 0

variable {h : Handle} {ts : List HierarchyTree}

theorem nodesOf_eq (ts : List HierarchyTree) : nodesOf ts = ts.flatMap nodes := by
  induction ts with
  | nil => rfl
  | cons t ts ih => rw [nodesOf, ih, List.flatMap_cons]

theorem pathsOf_eq (ts : List HierarchyTree) : pathsOf ts = ts.flatMap paths := by
  induction ts with
  | nil => rfl
  | cons t ts ih => rw [pathsOf, ih, List.flatMap_cons]

@[simp] theorem nodes_ofChildren : (ofChildren h ts).nodes = ofChildren h ts :: ts.flatMap nodes := by
  rw [ofChildren, nodes, nodesOf_eq]

@[simp] theorem paths_ofChildren : (ofChildren h ts).paths = [h] :: (ts.flatMap paths).map (h :: ·) := by
  rw [ofChildren, paths, pathsOf_eq]

theorem count_ofChildren : (ofChildren h ts).count = (ts.map fun t => t.count + 1).sum := by
  change ts.foldr (fun t n => t.count + 1 + n) 0 = _
  rw [List.sum_eq_foldr, List.foldr_map]

theorem depth_lt {t : HierarchyTree} {bound : Nat} (hpos : 0 < bound)
    (hshort : ∀ path ∈ t.paths, path.length ≤ bound) : t.depth < bound := by
  unfold depth
  generalize t.paths = paths at hshort
  induction paths with
  | nil => exact hpos
  | cons path paths ih =>
    rw [List.map_cons, List.foldr_cons, Nat.max_lt]
    have := hshort path (List.mem_cons_self ..)
    exact ⟨by omega, ih fun p hp => hshort p (List.mem_cons_of_mem _ hp)⟩

end HierarchyTree

namespace ClassModel

open HierarchyTree

/-- Working the hierarchy below a class out comes to an end, with this tree: it does for every class listed below. -/
inductive Unfolds (m : ClassModel) : Handle → HierarchyTree → Prop
  | node {h : Handle} (tree : Handle → HierarchyTree) (below : ∀ c ∈ m.subclasses h, Unfolds m c (tree c)) :
    Unfolds m h (.ofChildren h ((m.sortHandles (m.subclasses h)).map tree))

/-- A way down from a class: each class on it is listed below the one before. -/
structure Descent (m : ClassModel) (h : Handle) (path : List Handle) : Prop where
  start : path.head? = some h
  steps : path.IsChain m.Below

variable {m : ClassModel} {h r c : Handle} {t : HierarchyTree} {path : List Handle}

/-- A way down is the class alone, or goes on from one below it. -/
theorem descent_iff : m.Descent h path ↔
    path = [h] ∨ ∃ rest, (∃ c, m.Below h c ∧ m.Descent c rest) ∧ h :: rest = path := by
  constructor
  · rintro ⟨hstart, hsteps⟩
    cases path with
    | nil => cases hstart
    | cons a rest =>
      obtain rfl : a = h := Option.some.inj hstart
      cases rest with
      | nil => exact Or.inl rfl
      | cons c rest =>
        obtain ⟨hbelow, hrest⟩ := List.isChain_cons_cons.1 hsteps
        exact Or.inr ⟨c :: rest, ⟨c, hbelow, rfl, hrest⟩, rfl⟩
  · rintro (rfl | ⟨rest, ⟨c, hbelow, hstart, hsteps⟩, rfl⟩)
    · exact ⟨rfl, List.isChain_singleton h⟩
    · refine ⟨rfl, List.isChain_cons.2 ⟨fun y hy => ?_, hsteps⟩⟩
      rw [hstart] at hy
      obtain rfl : c = y := Option.some.inj hy
      exact hbelow

/-- Where there is no cycle a way down meets no class twice. -/
theorem Descent.nodup (ha : Acyclic m) (hd : m.Descent h path) : path.Nodup := by
  have hall : path.Pairwise (Relation.TransGen m.Below) :=
    (hd.steps.imp fun _ _ hab => Relation.TransGen.single hab).pairwise
  refine hall.imp fun {a b} hab => ?_
  rintro rfl
  exact ha a hab

theorem Descent.lt_size (hm : WellFormed m) (hh : h < m.size) (hd : m.Descent h path) : ∀ x ∈ path, x < m.size := by
  induction path generalizing h with
  | nil => cases hd.start
  | cons a rest ih =>
    rcases descent_iff.1 hd with e | ⟨rest', ⟨c, hbelow, hrest⟩, e⟩ <;> cases e
    · simpa using hh
    · exact List.forall_mem_cons.2 ⟨hh, ih (hm.targets _ _ _ _ hbelow).1 hrest⟩

theorem Descent.length_le (hm : WellFormed m) (ha : Acyclic m) (hh : h < m.size) (hd : m.Descent h path) :
    path.length ≤ m.size := by
  have hsub : path ⊆ List.range m.size := fun x hx => List.mem_range.2 (hd.lt_size hm hh x hx)
  simpa using (List.subperm_of_subset (hd.nodup ha) hsub).length_le

/-- A cycle through a class goes through one below it too, and would lead down without end. -/
theorem Unfolds.not_transGen (hu : m.Unfolds h t) : ¬ Relation.TransGen m.Below h h := by
  induction hu with
  | node tree _ ih =>
    intro hcycle
    obtain ⟨c, hc, hback⟩ := Relation.TransGen.head'_iff.1 hcycle
    exact ih c hc (Relation.TransGen.tail' hback hc)

/-- Where it comes to an end, going as deep as there are classes is going deep enough. -/
theorem Unfolds.hierarchyTo_eq (hm : WellFormed m) (hu : m.Unfolds h t) {d : Nat} (hd : m.rankOf h ≤ d) :
    m.hierarchyTo d h = t := by
  induction hu generalizing d with
  | @node h tree below ih =>
    have hbelow (c : Handle) (hc : c ∈ m.sortHandles (m.subclasses h)) :
        c ∈ m.subclasses h ∧ m.rankOf c < m.rankOf h := by
      have hc : c ∈ m.subclasses h := (mem_sortBy _).1 hc
      exact ⟨hc, rankOf_lt_of_not_transGen hm (below c hc).not_transGen hc⟩
    cases d with
    | zero =>
      have hnone : m.sortHandles (m.subclasses h) = [] := by
        rw [List.eq_nil_iff_forall_not_mem]
        intro c hc
        have := (hbelow c hc).2
        omega
      rw [hierarchyTo, hnone]
      rfl
    | succ d =>
      rw [hierarchyTo]
      congr 1
      refine List.map_congr_left fun c hc => ?_
      have hlt := (hbelow c hc).2
      exact ih c (hbelow c hc).1 (by omega)

theorem Unfolds.eq_hierarchy (hm : WellFormed m) (hu : m.Unfolds h t) : t = m.hierarchy h :=
  (hu.hierarchyTo_eq hm (m.rankOf_le h)).symm

theorem Unfolds.handle_eq (hu : m.Unfolds h t) : t.handle = h := by
  cases hu
  rfl

/-- Below every node stand its subclasses in order. -/
theorem Unfolds.children_eq {s : HierarchyTree} (hu : m.Unfolds h t) (hs : s ∈ t.nodes) :
    s.children.map (·.handle) = m.sortHandles (m.subclasses s.handle) := by
  induction hu with
  | @node h tree below ih =>
    rw [nodes_ofChildren, List.mem_cons, List.flatMap_map, List.mem_flatMap] at hs
    rcases hs with rfl | ⟨c, hc, hs⟩
    · change (List.map _ _).map _ = _
      rw [List.map_map]
      exact (List.map_congr_left fun c hc => (below c ((mem_sortBy _).1 hc)).handle_eq).trans (List.map_id _)
    · exact ih c ((mem_sortBy _).1 hc) hs

section Acyclic

variable (hm : WellFormed m) (ha : Acyclic m)

include hm ha

theorem unfolds_iff : m.Unfolds h t ↔ t = m.hierarchy h := by
  constructor
  · exact fun hu => hu.eq_hierarchy hm
  · rintro rfl
    induction h using below_induction hm ha with
    | _ h ih =>
      rw [hierarchy_eq hm ha h]
      exact .node m.hierarchy ih

theorem mem_paths_hierarchy : path ∈ (m.hierarchy h).paths ↔ m.Descent h path := by
  induction h using below_induction hm ha generalizing path with
  | _ h ih =>
    rw [hierarchy_eq hm ha, paths_ofChildren, List.mem_cons, List.mem_map, descent_iff, List.flatMap_map]
    refine or_congr_right (exists_congr fun rest => and_congr_left fun _ => ?_)
    rw [List.mem_flatMap]
    refine exists_congr fun c => ?_
    rw [sortHandles, mem_sortBy]
    exact and_congr_right fun hc => ih c hc

theorem nodup_paths_hierarchy (hnodup : ∀ h, (m.subclasses h).Nodup) : (m.hierarchy h).paths.Nodup := by
  induction h using below_induction hm ha with
  | _ h ih =>
    rw [hierarchy_eq hm ha, paths_ofChildren, List.flatMap_map, List.nodup_cons]
    constructor
    · intro hmem
      obtain ⟨rest, hrest, e⟩ := List.mem_map.1 hmem
      obtain ⟨c, -, hrest⟩ := List.mem_flatMap.1 hrest
      rw [mem_paths_hierarchy hm ha] at hrest
      cases e
      cases hrest.start
    · refine (List.nodup_flatMap.2 ⟨fun c hc => ih c ((mem_sortBy _).1 hc), ?_⟩).map (List.cons_injective)
      -- ways from different classes differ at the start
      refine ((sortBy_perm _ _).nodup_iff.2 (hnodup h)).imp fun {a b} hab path hpa hpb => hab ?_
      rw [mem_paths_hierarchy hm ha] at hpa hpb
      exact Option.some.inj (hpa.start.symm.trans hpb.start)

/-- The nodes and the ways to them are listed in the same order. -/
theorem ends_hierarchy (h : Handle) :
    (m.hierarchy h).paths.map List.getLast? = (m.hierarchy h).nodes.map fun s => some s.handle := by
  induction h using below_induction hm ha with
  | _ h ih =>
    have hends : ∀ c ∈ m.sortHandles (m.subclasses h), (m.hierarchy c).paths.map (fun path => (h :: path).getLast?) =
        (m.hierarchy c).nodes.map fun s => some s.handle := by
      intro c hc
      rw [← ih c ((mem_sortBy _).1 hc)]
      refine List.map_congr_left fun path hpath => ?_
      rw [mem_paths_hierarchy hm ha] at hpath
      cases path with
      | nil => cases hpath.start
      | cons a rest => exact List.getLast?_cons_cons
    rw [hierarchy_eq hm ha, paths_ofChildren, nodes_ofChildren, List.map_cons, List.map_cons, List.map_map,
      List.flatMap_map, List.flatMap_map, List.map_flatMap, List.map_flatMap]
    congr 1
    exact List.flatMap_congr hends

theorem count_hierarchy (h : Handle) : (m.hierarchy h).count + 1 = (m.hierarchy h).nodes.length := by
  induction h using below_induction hm ha with
  | _ h ih =>
    rw [hierarchy_eq hm ha, count_ofChildren, nodes_ofChildren, List.length_cons, List.length_flatMap, List.map_map,
      List.map_map]
    congr 2
    exact List.map_congr_left fun c hc => ih c ((mem_sortBy _).1 hc)

/-- Below every node stands the hierarchy below its class. -/
theorem eq_hierarchy_of_mem_nodes (ht : t ∈ (m.hierarchy h).nodes) : t = m.hierarchy t.handle := by
  induction h using below_induction hm ha with
  | _ h ih =>
    have hself := hierarchy_eq hm ha h
    rw [hself, nodes_ofChildren, List.mem_cons, List.flatMap_map, List.mem_flatMap] at ht
    rcases ht with rfl | ⟨c, hc, ht⟩
    · exact hself.symm
    · exact ih c ((mem_sortBy _).1 hc) ht

theorem encard_descents (hnodup : ∀ h, (m.subclasses h).Nodup) (h : Handle) :
    {path | m.Descent h path ∧ 1 < path.length}.encard = (m.hierarchy h).count := by
  obtain ⟨rest, hrest⟩ : ∃ rest, (m.hierarchy h).paths = [h] :: rest :=
    ⟨_, by rw [hierarchy_eq hm ha, paths_ofChildren]⟩
  have hlength : rest.length = (m.hierarchy h).count := by
    have hpaths := congrArg List.length (ends_hierarchy hm ha h)
    rw [List.length_map, List.length_map, ← count_hierarchy hm ha, hrest, List.length_cons] at hpaths
    exact Nat.succ.inj hpaths
  have hapart := nodup_paths_hierarchy hm ha hnodup (h := h)
  rw [hrest, List.nodup_cons] at hapart
  have hset : {path | m.Descent h path ∧ 1 < path.length} = rest.toFinset := by
    ext path
    have hmem : path ∈ (m.hierarchy h).paths ↔ m.Descent h path := mem_paths_hierarchy hm ha
    rw [hrest, List.mem_cons] at hmem
    rw [Set.mem_ofPred_eq, Finset.mem_coe, List.mem_toFinset, ← hmem]
    constructor
    · rintro ⟨rfl | hin, hlong⟩
      · simp at hlong
      · exact hin
    · intro hin
      refine ⟨Or.inr hin, ?_⟩
      -- the only way of one class is the one that stands first
      rcases descent_iff.1 (hmem.1 (Or.inr hin)) with rfl | ⟨tail, ⟨c, -, htail⟩, rfl⟩
      · exact absurd hin hapart.1
      · cases tail with
        | nil => cases htail.start
        | cons => simp
  rw [hset, Set.encard_coe_eq_coe_finsetCard, List.toFinset_card_of_nodup hapart.2, hlength]

end Acyclic

theorem unfolds_everywhere_iff (hm : WellFormed m) : (∀ h < m.size, ∃ t, m.Unfolds h t) ↔ Acyclic m := by
  constructor
  · intro hall h hcycle
    obtain ⟨c, hc, -⟩ := Relation.TransGen.head'_iff.1 hcycle
    obtain ⟨t, ht⟩ := hall h (lt_of_mem_targets hc)
    exact ht.not_transGen hcycle
  · intro ha h _
    exact ⟨m.hierarchy h, (unfolds_iff hm ha).2 rfl⟩

/-- The tree shows every way down from the class once and nothing else, ordered at each node, with the number of ways
down from there. -/
structure Unfolded (m : ClassModel) (r : Handle) (t : HierarchyTree) : Prop where
  top : t.handle = r
  ways : ∀ path, path ∈ t.paths ↔ m.Descent r path
  once : t.paths.Nodup
  ends : t.paths.map List.getLast? = t.nodes.map fun s => some s.handle
  simple : ∀ path ∈ t.paths, path.Nodup
  depth : t.depth < m.size
  children : ∀ s ∈ t.nodes, StablySorted m.compare ((m.classAt s.handle).targets .inbound .superClass)
    (s.children.map (·.handle))
  below : ∀ s ∈ t.nodes, s.count + 1 = s.nodes.length
  count : ∀ s ∈ t.nodes, {path | m.Descent s.handle path ∧ 1 < path.length}.encard = s.count

theorem handle_hierarchy (hm : WellFormed m) (ha : Acyclic m) (h : Handle) : (m.hierarchy h).handle = h :=
  ((unfolds_iff hm ha).2 rfl).handle_eq

theorem unfolded (hm : WellFormed m) (ha : Acyclic m) (hnodup : ∀ h, (m.subclasses h).Nodup) (hr : r < m.size) :
    Unfolded m r (m.hierarchy r) := by
  have hways (path : List Handle) : path ∈ (m.hierarchy r).paths ↔ m.Descent r path := mem_paths_hierarchy hm ha
  have hnode {s : HierarchyTree} (hs : s ∈ (m.hierarchy r).nodes) : ∃ h, s = m.hierarchy h :=
    ⟨s.handle, eq_hierarchy_of_mem_nodes hm ha hs⟩
  refine ⟨handle_hierarchy hm ha r, hways, nodup_paths_hierarchy hm ha hnodup, ends_hierarchy hm ha r,
    fun path hpath => ((hways path).1 hpath).nodup ha, ?_, fun s hs => ?_, fun s hs => ?_, fun s hs => ?_⟩
  · exact depth_lt (Nat.zero_lt_of_lt hr) fun path hpath => ((hways path).1 hpath).length_le hm ha hr
  · rw [((unfolds_iff hm ha).2 rfl).children_eq hs]
    exact stablySorted_sortBy m.compare _
  · obtain ⟨h, rfl⟩ := hnode hs
    exact count_hierarchy hm ha h
  · obtain ⟨h, rfl⟩ := hnode hs
    rw [handle_hierarchy hm ha]
    exact encard_descents hm ha hnodup h

/-- After any run, violations included, a model without a cycle has its hierarchy worked out below every class. -/
theorem run_unfolds (policy : Policy) (ops : List Operation)
    (valid : ((empty policy).run ops).1.validateHierarchy = .ok ()) :
    let m := ((empty policy).run ops).1
    ∀ r < m.size, (∀ t, m.Unfolds r t ↔ t = m.hierarchy r) ∧ Unfolded m r (m.hierarchy r) := by
  intro m r hr
  have hm : WellFormed m := run_wellFormed policy ops
  have hnodup (h : Handle) : (m.subclasses h).Nodup := ((run_moves (empty policy) ops).booked h).nodup _ _
  rcases validateHierarchy_cases m with ⟨hnone, -⟩ | ⟨-, c, hc⟩
  · have ha : Acyclic m := (superClassCycle?_eq_none_iff hm).1 hnone
    exact ⟨fun t => unfolds_iff hm ha, unfolded hm ha hnodup hr⟩
  · rw [hc] at valid
    cases valid

/-- `B` extends `A`, both realize the interface `I`, and once all is finished `I` is to extend `B`, a violation. -/
def sharedHeir : List Operation :=
  let named (id : String) (modifiers : List Modifier) : Element :=
    { attributes := { id := id, name := id, kind := .classType, modifiers := .ofList modifiers } }
  [.addClass (named "I" [.interface]) [], .addClass (named "A" []) [], .addClass (named "B" []) [],
    .addSuperInterface 2 0, .addRelation 2 .superClass 1, .addSuperInterface 1 0, .finishAllMembers,
    .addRelation 0 .superClass 2, .finishAllRelations]

/-- `B` stands below `I` twice, once as a class that realizes it and once below `A`. -/
theorem run_unfolds_sharedHeir :
    let m := ((empty .byKind).run sharedHeir).1
    ((empty .byKind).run sharedHeir).2.countP Reply.isViolation = 1 ∧ m.validateHierarchy = .ok () ∧
      (m.hierarchy 0).paths = [[0], [0, 1], [0, 1, 2], [0, 2]] ∧ (m.hierarchy 0).count = 3 ∧
      (∀ t, m.Unfolds 0 t ↔ t = m.hierarchy 0) ∧ Unfolded m 0 (m.hierarchy 0) := by
  intro m
  have acyclic : m.superClassCycle? = none := by decide +kernel
  have valid : m.validateHierarchy = .ok () := by
    rw [validateHierarchy, acyclic]
  exact ⟨by decide +kernel, valid, by decide +kernel, by decide +kernel,
    run_unfolds .byKind sharedHeir valid 0 (by decide +kernel)⟩

end ClassModel

end ClassAtlas
