import ClassAtlas.Command.Report
import ClassAtlas.Proofs.SameAnswers
import ClassAtlas.Proofs.Unfolding

/-! The outline of a forest lists its nodes in the order of their addresses (`outlines`), and the count of a node says
how many of the lines after its own lie below it: the counts come from below, the lines from above, and they meet in
`block_outlineAt`. The depths alone tell the shape of the forest (`sameShape_of_depths`). -/

namespace ClassAtlas

namespace HierarchyView

/-- The node that is reached by going down to a child of the given number at each step. -/
def descendant? (v : HierarchyView) : List Nat → Option HierarchyView
  | [] => some v
  | i :: rest => v.children[i]?.bind (·.descendant? rest)

/-- The node of a forest at an address, which starts with the number of a root. -/
def nodeAt? (roots : List HierarchyView) : List Nat → Option HierarchyView
  | [] => none
  | i :: rest => roots[i]?.bind (·.descendant? rest)

/-- Two forests have nodes at the same addresses, whatever these show. -/
def SameShape (vs ws : List HierarchyView) : Prop := ∀ a, (nodeAt? vs a).isSome = (nodeAt? ws a).isSome

/-- Of the lines after one at some depth the first so many lie deeper, and no more in a row. -/
structure Block (depth count : Nat) (after : List (Nat × ClassRef × Nat)) : Prop where
  enough : count ≤ after.length
  deeper : ∀ line ∈ after.take count, depth < line.1
  ended : ∀ line ∈ (after.drop count).head?, line.1 ≤ depth

/-- Every line counts the block after it. -/
def Blocks (outline : List (Nat × ClassRef × Nat)) : Prop :=
  ∀ depth ref count after, (depth, ref, count) :: after <:+ outline → Block depth count after

/-- The nodes of a forest line by line: each before those below it, and these in the order of the children. -/
structure Outlines (roots : List HierarchyView) (outline : List (Nat × ClassRef × Nat)) : Prop where
  preorder : ∃ placed : List (List Nat × HierarchyView),
    placed.Pairwise (fun x y => x.1 < y.1) ∧
    (∀ a v, (a, v) ∈ placed ↔ nodeAt? roots a = some v) ∧
    outline = placed.map fun (a, v) => (a.length - 1, v.ref, v.count)
  blocks : Blocks outline

/-- The count of every node is what its children count, themselves included. -/
inductive Tallied : HierarchyView → Prop
  | node {ref : ClassRef} {children : List HierarchyView} (below : ∀ v ∈ children, Tallied v) :
    Tallied ⟨ref, (children.map fun v => v.count + 1).sum, children⟩

theorem tallied_ofChildren (m : ClassModel) (h : Handle) {ts : List HierarchyTree}
    (below : ∀ t ∈ ts, (ofTree m t).Tallied) : (ofTree m (.ofChildren h ts)).Tallied := by
  have hcounts : ts.map (fun t => t.count + 1) = (ts.map (ofTree m)).map fun v => v.count + 1 := by
    simp [Function.comp_def, count_ofTree]
  rw [HierarchyTree.ofChildren, ofTree, ofTrees_eq]
  change Tallied ⟨_, (HierarchyTree.ofChildren h ts).count, _⟩
  rw [HierarchyTree.count_ofChildren, hcounts]
  exact .node (List.forall_mem_map.2 below)

theorem tallied_hierarchyTo (m : ClassModel) (depth : Nat) (h : Handle) :
    (ofTree m (m.hierarchyTo depth h)).Tallied := by
  induction depth generalizing h with
  | zero => exact tallied_ofChildren m h (by simp)
  | succ depth ih => exact tallied_ofChildren m h (List.forall_mem_map.2 fun c _ => ih c)

theorem tallied_hierarchies (m : ClassModel) (hs : List Handle) : ∀ v ∈ ofTrees m (hs.map m.hierarchy), v.Tallied := by
  rw [ofTrees_eq, List.map_map]
  exact List.forall_mem_map.2 fun h _ => tallied_hierarchyTo m _ h

mutual

/-- The nodes of a tree with the ways to them, each before those below it. -/
def placed : HierarchyView → List (List Nat × HierarchyView)
  | ⟨ref, count, children⟩ => ([], ⟨ref, count, children⟩) :: placedFrom 0 children

/-- The nodes of a forest with their addresses, where the first root has the given number. -/
def placedFrom (i : Nat) : List HierarchyView → List (List Nat × HierarchyView)
  | [] => []
  | v :: vs => (placed v).map (fun (a, w) => (i :: a, w)) ++ placedFrom (i + 1) vs

end

variable {v w : HierarchyView} {vs ws : List HierarchyView} {a : List Nat} {d : Nat}
  {line : Nat × ClassRef × Nat} {rest : List (Nat × ClassRef × Nat)}

mutual

theorem outlineAt_eq (d : Nat) :
    ∀ v, outlineAt d v = v.placed.map fun (a, w) => (d + a.length, w.ref, w.count)
  | ⟨ref, count, children⟩ => by
    rw [outlineAt, placed, List.map_cons, outlinesAt_eq (d + 1) 0 children]
    simp

theorem outlinesAt_eq (d i : Nat) :
    ∀ vs, outlinesAt d vs = (placedFrom i vs).map fun (a, w) => (d + a.length - 1, w.ref, w.count)
  | [] => rfl
  | v :: vs => by
    rw [outlinesAt, placedFrom, List.map_append, List.map_map, outlineAt_eq d v, outlinesAt_eq d (i + 1) vs]
    rfl

end

mutual

theorem mem_placed {a : List Nat} {w : HierarchyView} : ∀ {v}, (a, w) ∈ placed v ↔ v.descendant? a = some w
  | ⟨ref, count, children⟩ => by
    rw [placed, List.mem_cons, mem_placedFrom]
    cases a with
    | nil => simp [descendant?, eq_comm]
    | cons j rest => simp [descendant?, nodeAt?]

theorem mem_placedFrom {a : List Nat} {w : HierarchyView} {i : Nat} : ∀ {vs},
    (a, w) ∈ placedFrom i vs ↔ ∃ j rest, a = (i + j) :: rest ∧ nodeAt? vs (j :: rest) = some w
  | [] => by simp [placedFrom, nodeAt?]
  | v :: vs => by
    have hfirst : (a, w) ∈ (placed v).map (fun (b, u) => (i :: b, u)) ↔
        ∃ rest, a = i :: rest ∧ v.descendant? rest = some w := by
      simp [← mem_placed, and_comm, eq_comm]
    rw [placedFrom, List.mem_append, hfirst, mem_placedFrom]
    constructor
    · rintro (⟨rest, rfl, h⟩ | ⟨j, rest, rfl, h⟩)
      · exact ⟨0, rest, rfl, h⟩
      · exact ⟨j + 1, rest, by rw [Nat.add_assoc, Nat.add_comm 1], h⟩
    · rintro ⟨j, rest, rfl, h⟩
      cases j with
      | zero => exact Or.inl ⟨rest, rfl, h⟩
      | succ j => exact Or.inr ⟨j, rest, by rw [Nat.add_assoc, Nat.add_comm 1], h⟩

end

mutual

theorem pairwise_placed : ∀ v, (placed v).Pairwise fun x y => x.1 < y.1
  | ⟨ref, count, children⟩ => by
    rw [placed, List.pairwise_cons]
    refine ⟨fun ⟨a, w⟩ hmem => ?_, pairwise_placedFrom 0 children⟩
    obtain ⟨j, rest, rfl, -⟩ := mem_placedFrom.1 hmem
    exact List.nil_lt_cons _ _

theorem pairwise_placedFrom (i : Nat) : ∀ vs, (placedFrom i vs).Pairwise fun x y => x.1 < y.1
  | [] => List.Pairwise.nil
  | v :: vs => by
    rw [placedFrom, List.pairwise_append, List.pairwise_map]
    refine ⟨(pairwise_placed v).imp fun h => ?_, pairwise_placedFrom (i + 1) vs, ?_⟩
    · exact List.cons_lt_cons_iff.2 (Or.inr ⟨rfl, h⟩)
    · rintro x hx ⟨b, w⟩ hy
      obtain ⟨y, -, rfl⟩ := List.mem_map.1 hx
      obtain ⟨j, rest, rfl, -⟩ := mem_placedFrom.1 hy
      exact List.cons_lt_cons_iff.2 (Or.inl (by omega))

end

theorem mem_placedFrom_zero : (a, w) ∈ placedFrom 0 vs ↔ nodeAt? vs a = some w := by
  rw [mem_placedFrom]
  cases a with
  | nil => simp [nodeAt?]
  | cons j rest => simp

@[simp] theorem outlinesAt_nil : outlinesAt d [] = [] := rfl

@[simp] theorem outlinesAt_cons : outlinesAt d (v :: vs) =
    (d, v.ref, v.count) :: (outlinesAt (d + 1) v.children ++ outlinesAt d vs) := by
  obtain ⟨ref, count, children⟩ := v
  rw [outlinesAt, outlineAt, List.cons_append]

/-- No node of a forest lies above its roots. -/
theorem le_of_mem_outlinesAt (h : line ∈ outlinesAt d vs) : d ≤ line.1 := by
  rw [outlinesAt_eq d 0, List.mem_map] at h
  obtain ⟨⟨a, w⟩, hmem, rfl⟩ := h
  obtain ⟨j, tail, rfl, -⟩ := mem_placedFrom.1 hmem
  simp

theorem head_outlinesAt (hrest : ∀ line ∈ rest.head?, line.1 ≤ d) :
    ∀ line ∈ (outlinesAt d vs ++ rest).head?, line.1 ≤ d := by
  cases vs with
  | nil => exact hrest
  | cons v vs => simp

theorem outlinesAt_eq_flatMap (d : Nat) (vs : List HierarchyView) : outlinesAt d vs = vs.flatMap (outlineAt d) := by
  induction vs with
  | nil => rfl
  | cons v vs ih => rw [outlinesAt, ih, List.flatMap_cons]

theorem length_outlinesAt (hvs : ∀ v ∈ vs, (outlineAt d v).length = v.count + 1) :
    (outlinesAt d vs).length = (vs.map fun v => v.count + 1).sum := by
  rw [outlinesAt_eq_flatMap, List.length_flatMap]
  congr 1
  exact List.map_congr_left hvs

/-- A tree has as many lines as its root counts, and one for the root. -/
theorem length_outlineAt (hv : v.Tallied) (d : Nat) : (outlineAt d v).length = v.count + 1 := by
  induction hv generalizing d with
  | node _ ih => rw [outlineAt, List.length_cons, length_outlinesAt fun c hc => ih c hc (d + 1)]

theorem blocks_nil : Blocks [] := by
  intro depth ref count after h
  simp at h

theorem Blocks.cons {depth count : Nat} {ref : ClassRef} (hfirst : Block depth count rest) (hrest : Blocks rest) :
    Blocks ((depth, ref, count) :: rest) := by
  intro depth' ref' count' after h
  rcases List.suffix_cons_iff.1 h with heq | hlater
  · cases heq
    exact hfirst
  · exact hrest _ _ _ _ hlater

theorem Blocks.outlinesAt (below : ∀ v ∈ vs, ∀ rest, Blocks rest → (∀ line ∈ rest.head?, line.1 ≤ d) →
    Blocks (outlineAt d v ++ rest)) (hrest : Blocks rest) (hhead : ∀ line ∈ rest.head?, line.1 ≤ d) :
    Blocks (outlinesAt d vs ++ rest) := by
  induction vs with
  | nil => exact hrest
  | cons v vs ih =>
    obtain ⟨hv, hvs⟩ := List.forall_mem_cons.1 below
    rw [HierarchyView.outlinesAt, List.append_assoc]
    exact hv _ (ih hvs) (head_outlinesAt hhead)

/-- The lines of a tree count their blocks, whatever comes after the tree, if that is no deeper than its root. -/
theorem Blocks.outlineAt (hv : v.Tallied) (hrest : Blocks rest) (hhead : ∀ line ∈ rest.head?, line.1 ≤ d) :
    Blocks (outlineAt d v ++ rest) := by
  induction hv generalizing d rest with
  | @node ref children below ih =>
    rw [HierarchyView.outlineAt, List.cons_append]
    have hlength := length_outlinesAt fun v hv => length_outlineAt (below v hv) (d + 1)
    -- the block of the root is made of the lines of its children, and what comes after ends theirs too
    refine .cons ⟨?_, ?_, ?_⟩ (.outlinesAt (fun v hv _ => ih v hv) hrest fun line hline => ?_)
    · rw [List.length_append, hlength]
      exact Nat.le_add_right _ _
    · rw [List.take_left' hlength]
      exact fun line hline => le_of_mem_outlinesAt hline
    · rwa [List.drop_left' hlength]
    · exact Nat.le_succ_of_le (hhead line hline)

theorem blocks_outlinesAt (hvs : ∀ v ∈ vs, v.Tallied) (d : Nat) : Blocks (outlinesAt d vs) := by
  have h : Blocks (outlinesAt d vs ++ []) := .outlinesAt (fun v hv _ => .outlineAt (hvs v hv)) blocks_nil (by simp)
  rwa [List.append_nil] at h

theorem outlines (hvs : ∀ v ∈ vs, v.Tallied) : Outlines vs (outlinesAt 0 vs) where
  preorder := by
    refine ⟨placedFrom 0 vs, pairwise_placedFrom 0 vs, fun _ _ => mem_placedFrom_zero, ?_⟩
    rw [outlinesAt_eq 0 0]
    simp
  blocks := blocks_outlinesAt hvs 0

theorem sameShape_cons (hbelow : SameShape v.children w.children) (hnext : SameShape vs ws) :
    SameShape (v :: vs) (w :: ws) := by
  intro a
  rcases a with _ | ⟨_ | i, rest⟩
  · rfl
  · cases rest with
    | nil => rfl
    | cons j rest => exact hbelow (j :: rest)
  · exact hnext (i :: rest)

/-- The depths tell where the lines below a node end and those of the next one begin. -/
theorem takeWhile_depths (d : Nat) (children next : List HierarchyView) :
    ((outlinesAt (d + 1) children).map (·.1) ++ (outlinesAt d next).map (·.1)).takeWhile (d < ·) =
      (outlinesAt (d + 1) children).map (·.1) := by
  have hdeeper : ∀ x ∈ (outlinesAt (d + 1) children).map (·.1), decide (d < x) = true := by
    rw [List.forall_mem_map]
    exact fun line hline => decide_eq_true (le_of_mem_outlinesAt hline)
  rw [List.takeWhile_append_of_pos hdeeper]
  cases next with
  | nil => simp
  | cons v vs => simp

/-- Forests whose outlines go up and down alike have the same shape. -/
theorem sameShape_of_depths (d : Nat) : ∀ vs ws,
    (outlinesAt d vs).map (·.1) = (outlinesAt d ws).map (·.1) → SameShape vs ws
  | [], [], _ => fun _ => rfl
  | [], _ :: _, h => by simp at h
  | _ :: _, [], h => by simp at h
  | ⟨_, _, children⟩ :: vs, ⟨_, _, children'⟩ :: ws, h => by
    simp only [outlinesAt_cons, List.map_cons, List.map_append, List.cons.injEq, true_and] at h
    have hbelow := congrArg (List.takeWhile (d < ·)) h
    rw [takeWhile_depths, takeWhile_depths] at hbelow
    rw [hbelow, List.append_cancel_left_eq] at h
    exact sameShape_cons (sameShape_of_depths (d + 1) _ _ hbelow) (sameShape_of_depths d _ _ h)

end HierarchyView

end ClassAtlas
