import ClassAtlas.Model.Basic

/-!
The tree of one class: under its content the annotations, the members by kind and their details, under
its relations one group for each collection of related classes. Empty groups are left out.
-/

namespace ClassAtlas

/-- What a group stands for. -/
inductive GroupMarker
  | content
  | relations
  | kind (kind : ElementKind)
  | relation (relation : Relation) (direction : Direction)
deriving DecidableEq

def GroupMarker.name : GroupMarker → String
  | .content => "CONTENT"
  | .relations => "RELATIONS"
  | .kind k => k.name
  | .relation r d => r.name ++ ":" ++ d.name

/-- Label of a group; all but the two outer ones count what they hold. -/
structure GroupLabel where
  marker : GroupMarker
  symbol : String
  title : String
  color : Option Rgb := none
  count : Option Nat := none
deriving DecidableEq

namespace GroupLabel

def content : GroupLabel := { marker := .content, symbol := "∋", title := "Content" }

def relations : GroupLabel := { marker := .relations, symbol := "↔", title := "Relations" }

def ofKind (kind : ElementKind) (count : Nat) : GroupLabel :=
  { marker := .kind kind, symbol := String.singleton kind.symbol, title := kind.name,
    color := kind.color, count := count }

def ofRelation (relation : Relation) (direction : Direction) (title : String) (count : Nat) :
    GroupLabel :=
  { marker := .relation relation direction, symbol := relation.symbol direction, title := title,
    color := relation.color, count := count }

/-- The label of a group as one line. -/
def line (symbol title : String) (count : Option Nat) : String :=
  match count with
  | some n => symbol ++ " " ++ title ++ " (" ++ toString n ++ ")"
  | none => symbol ++ " " ++ title

def text (l : GroupLabel) : String := line l.symbol l.title l.count

end GroupLabel

inductive TreeItem
  | classNode (handle : Handle)
  | element (element : Element)
  | annotationRef (ref : AnnotationRef)
  | group (label : GroupLabel)

structure MemberTree where
  item : TreeItem
  children : List MemberTree := []

namespace MemberTree

def label? (t : MemberTree) : Option GroupLabel :=
  match t.item with
  | .group label => some label
  | _ => none

/-- The direct child that is the group of a marker. -/
def group? (t : MemberTree) (marker : GroupMarker) : Option MemberTree :=
  t.children.find? fun child => (child.label?.map (·.marker)) = some marker

def groupAt? (t : MemberTree) : List GroupMarker → Option MemberTree
  | [] => some t
  | marker :: path => (t.group? marker).bind (·.groupAt? path)

/-- A group, unless it is empty. -/
def branch (label : Nat → GroupLabel) (children : List MemberTree) : List MemberTree :=
  if children.isEmpty then [] else [⟨.group (label children.length), children⟩]

def annotationBranch (annotations : List AnnotationRef) : List MemberTree :=
  branch (.ofKind .annotations) (annotations.map fun a => ⟨.annotationRef a, []⟩)

mutual

/-- An element over its annotations, parameters and throwables. -/
def ofElement : Element → MemberTree
  | ⟨attributes, annotations, declaredType, suffix, details⟩ =>
    ⟨.element ⟨attributes, annotations, declaredType, suffix, details⟩,
      annotationBranch annotations ++ ofDetails details⟩

def ofDetails : Details Element → List MemberTree
  | .plain => []
  | .operation parameters throwables =>
    branch (.ofKind .parameters) (ofElements parameters) ++
      branch (.ofKind .throws) (ofElements throwables)

def ofElements : List Element → List MemberTree
  | [] => []
  | e :: es => ofElement e :: ofElements es

end

/-- The groups of related classes in the order of display. -/
def relationGroups : List (Relation × Direction × String) := [
  (.superClass, .outbound, "Generalization (SuperClass)"),
  (.superInterface, .outbound, "Abstractions (SuperInterfaces)"),
  (.superInterface, .inbound, "Specializations (SubInterfaces)"),
  (.superClass, .inbound, "Specializations/Realizations (SubClasses)"),
  (.innerClass, .outbound, "Nestings (Inner Classes)"),
  (.association, .outbound, "Associations (Uses)"),
  (.dependency, .outbound, "Dependencies (Uses)"),
  (.annotationDependency, .outbound, "Dependencies (Annotations)"),
  (.throwsDependency, .outbound, "Dependencies (Throws)"),
  (.innerClass, .inbound, "Nesting Owner (Outer Class)"),
  (.association, .inbound, "Association Usages (Used By)"),
  (.dependency, .inbound, "Dependency Usages (Used By)"),
  (.annotationDependency, .inbound, "Dependency Usages (Annotated)"),
  (.throwsDependency, .inbound, "Dependency Usages (Thrown By)")]

def contentBranches (n : ClassNode) : List MemberTree :=
  annotationBranch n.annotations ++
    n.memberLists.flatMap fun (kind, list) => branch (.ofKind kind) (ofElements list)

def relationBranch (m : ClassModel) (n : ClassNode) :
    Relation × Direction × String → List MemberTree
  | (relation, direction, title) =>
    branch (.ofRelation relation direction title)
      ((m.sortHandles (n.targets direction relation)).map fun h => ⟨.classNode h, []⟩)

def relationBranches (m : ClassModel) (n : ClassNode) : List MemberTree :=
  relationGroups.flatMap (relationBranch m n)

end MemberTree

/-- The tree of a class; it stands at the root. -/
def ClassModel.memberTree (m : ClassModel) (h : Handle) : MemberTree :=
  let n := m.classAt h
  ⟨.classNode h,
    MemberTree.branch (fun _ => .content) (MemberTree.contentBranches n) ++
      MemberTree.branch (fun _ => .relations) (MemberTree.relationBranches m n)⟩

end ClassAtlas
