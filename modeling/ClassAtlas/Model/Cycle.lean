import ClassAtlas.Model.Basic
import ClassAtlas.Model.EdgeGraph

/-!
Cycles of the class hierarchy. A class is followed by the classes listed inbound under its super class
relation.
-/

namespace ClassAtlas

namespace ClassModel

/-- The classes listed below a class: its subclasses and the classes that realize it. -/
def subclasses (m : ClassModel) (h : Handle) : List Handle :=
  (m.classAt h).targets .inbound .superClass

/-- Edges from every class to the classes listed below it, class by class and in their order there. -/
def hierarchyGraph (m : ClassModel) : EdgeGraph where
  size := m.size
  edges := m.classes.flatMap fun n => (n.targets .inbound .superClass).map (n.handle, ·)

def superClassCycle? (m : ClassModel) : Option Handle := m.hierarchyGraph.cycle?

/-- A hierarchy with a cycle, and a class on it. -/
structure Cyclic where
  through : String

def Cyclic.message (c : Cyclic) : String := "Super class cycle through " ++ c.through

def validateHierarchy (m : ClassModel) : Except Cyclic Unit :=
  match m.superClassCycle? with
  | some h => .error ⟨(m.classAt h).id⟩
  | none => .ok ()

end ClassModel

end ClassAtlas
