import ClassAtlas.View.Tree

/-! The nodes of member trees and of their views, each before those below it. -/

namespace ClassAtlas

namespace MemberTree

mutual

/-- The tree itself and all that stands below it. -/
def nodes : MemberTree → List MemberTree
  | ⟨item, children⟩ => ⟨item, children⟩ :: nodesOf children

def nodesOf : List MemberTree → List MemberTree
  | [] => []
  | t :: ts => nodes t ++ nodesOf ts

end

theorem nodesOf_eq (ts : List MemberTree) : nodesOf ts = ts.flatMap nodes := by
  induction ts with
  | nil => rfl
  | cons t ts ih => rw [nodesOf, ih, List.flatMap_cons]

theorem nodes_eq (t : MemberTree) : t.nodes = t :: t.children.flatMap nodes := by
  cases t
  rw [nodes, nodesOf_eq]

end MemberTree

namespace TreeView

mutual

/-- The view itself and all that stands below it. -/
def nodes : TreeView → List TreeView
  | ⟨item, children⟩ => ⟨item, children⟩ :: nodesOf children

def nodesOf : List TreeView → List TreeView
  | [] => []
  | v :: vs => nodes v ++ nodesOf vs

end

theorem nodesOf_eq (vs : List TreeView) : nodesOf vs = vs.flatMap nodes := by
  induction vs with
  | nil => rfl
  | cons v vs ih => rw [nodesOf, ih, List.flatMap_cons]

theorem ofTrees_eq (m : ClassModel) (ts : List MemberTree) : ofTrees m ts = ts.map (ofTree m) := by
  induction ts with
  | nil => rfl
  | cons t ts ih => rw [ofTrees, ih, List.map_cons]

theorem self_mem_nodes (v : TreeView) : v ∈ v.nodes := by
  cases v
  exact List.mem_cons_self ..

theorem mem_nodes_of_child {v c u : TreeView} (hc : c ∈ v.children) (hu : u ∈ c.nodes) : u ∈ v.nodes := by
  cases v
  rw [nodes, nodesOf_eq]
  exact List.mem_cons_of_mem _ (List.mem_flatMap_of_mem hc hu)

end TreeView

end ClassAtlas
