import ClassAtlas.Model.Cycle

/-!
The class hierarchy as trees: below a class stand its subclasses and the classes that realize it, in the
order of the model. Sub-interfaces are not among them and start trees of their own.
-/

namespace ClassAtlas

structure HierarchyTree where
  handle : Handle
  /-- Number of classes below this one, counted over the whole tree. -/
  count : Nat
  children : List HierarchyTree

namespace HierarchyTree

def isLeaf (t : HierarchyTree) : Bool := t.children.isEmpty

/-- A tree over its children; each of these counts for itself and for what is below it. -/
def ofChildren (h : Handle) (children : List HierarchyTree) : HierarchyTree :=
  ⟨h, children.foldr (fun t n => t.count + 1 + n) 0, children⟩

end HierarchyTree

namespace ClassModel

def hierarchyTo (m : ClassModel) : Nat → Handle → HierarchyTree
  | 0, h => .ofChildren h []
  | depth + 1, h => .ofChildren h ((m.sortHandles (m.subclasses h)).map (m.hierarchyTo depth))

/-- The hierarchy below a class. Without cycles no path meets a class twice, so it is complete when it
goes as deep as there are classes. -/
def hierarchy (m : ClassModel) (root : Handle) : HierarchyTree := m.hierarchyTo m.size root

/-- A class that stands below no other: without a super class, and without a super interface unless it
is an interface itself. -/
def isRoot (n : ClassNode) : Bool :=
  (n.targets .outbound .superClass).isEmpty &&
    (n.isInterface || (n.targets .outbound .superInterface).isEmpty)

def roots (m : ClassModel) : List Handle :=
  m.sortHandles ((m.classes.filter isRoot).map (·.handle))

/-- One tree for each root. -/
def forest (m : ClassModel) : List HierarchyTree := m.roots.map m.hierarchy

end ClassModel

end ClassAtlas
