import ClassAtlas.Model.Basic

/-!
The relation counts of a class: members, parents and children in the hierarchy, and the classes that use
it or that it uses.
-/

namespace ClassAtlas

structure RelationSummary where
  members : Nat
  parents : Nat
  children : Nat
  usedBy : Nat
  uses : Nat
deriving DecidableEq

namespace ClassNode

def count (n : ClassNode) (direction : Direction) (relation : Relation) : Nat :=
  (n.targets direction relation).length

/-- Classes met through checkable relations count once, by the ledger. -/
def usage (n : ClassNode) (direction : Direction) : Nat :=
  (n.ledger direction).length + n.count direction .throwsDependency +
    n.count direction .annotationDependency

def summary (n : ClassNode) : RelationSummary where
  members := ElementKind.umlKinds.foldr (fun kind total => (n.membersOf kind).length + total) 0
  parents := n.count .outbound .superClass + n.count .outbound .superInterface
  children := n.count .inbound .superClass + n.count .inbound .superInterface
  usedBy := n.usage .inbound
  uses := n.usage .outbound

end ClassNode

/-- A count as a table cell shows it: zero is blank. -/
def countCell (n : Nat) : String := if n = 0 then " " else toString n

end ClassAtlas
