import ClassAtlas.Enumeration
import ClassAtlas.Style.Color

/-!
Relations between classes. Each relation is held by both of its classes, outbound by the one it starts
from and inbound by the other; a relation and a direction together name a slot of a class.
-/

namespace ClassAtlas

/-- Side of a relation, as seen from the class that holds it. -/
inductive Direction
  | outbound
  | inbound
deriving DecidableEq

namespace Direction

instance : Enumeration Direction where
  all := [.outbound, .inbound]
  complete k := by cases k <;> decide
  nodup := by decide

def opposite : Direction → Direction
  | .outbound => .inbound
  | .inbound => .outbound

def name : Direction → String
  | .outbound => "OUTBOUND"
  | .inbound => "INBOUND"

end Direction

inductive Relation
  | superClass
  | superInterface
  | innerClass
  | association
  | dependency
  | throwsDependency
  | annotationDependency
deriving DecidableEq

namespace Relation

instance : Enumeration Relation where
  all := [.superClass, .superInterface, .innerClass, .association, .dependency, .throwsDependency,
    .annotationDependency]
  complete k := by cases k <;> decide
  nodup := by decide

/-- Relations whose outbound slots freeze together with the members of a class. -/
def frozenWithMembers : List Relation := [.superClass, .superInterface, .innerClass]

/-- Checkable relations share one ledger per direction: between a class and a target at most one of
them is kept. -/
def isCheckable : Relation → Bool
  | .innerClass | .association | .dependency => true
  | _ => false

def name : Relation → String
  | .superClass => "SUPER_CLASS"
  | .superInterface => "SUPER_INTERFACE"
  | .innerClass => "INNER_CLASS"
  | .association => "ASSOCIATION"
  | .dependency => "DEPENDENCY"
  | .throwsDependency => "DEPENDENCY_THROWS"
  | .annotationDependency => "DEPENDENCY_ANNOTATION"

def color : Relation → Rgb
  | .superInterface | .dependency => ⟨0xA9A9A9⟩
  | .throwsDependency => ⟨0xA90000⟩
  | .annotationDependency => ⟨0x808000⟩
  | .superClass | .innerClass | .association => .black

def symbol : Relation → Direction → String
  | .superClass, .outbound | .superInterface, .outbound => "↑"
  | .superClass, .inbound | .superInterface, .inbound => "↓"
  | .innerClass, .outbound => "⊕"
  | .innerClass, .inbound => "⊗"
  | _, .outbound => "→"
  | _, .inbound => "←"

end Relation

/-- A direction and a relation: one of the fourteen collections of a class. -/
abbrev Slot := Direction × Relation

end ClassAtlas
