import ClassAtlas.Element.Basic
import ClassAtlas.Model.Cell
import ClassAtlas.Policy
import ClassAtlas.Relation
import ClassAtlas.Sorting
import ClassAtlas.Text.QualifiedName

/-!
Class nodes: members by kind, fourteen relation cells, and per direction the ledger of the classes met
through checkable relations. A node looks after its own side of a relation only.
-/

namespace ClassAtlas

/-- How far a class is: still taking members, members sorted, or all its relations frozen. -/
inductive Lifecycle
  | building
  | membersFinalized
  | relationsFinalized
deriving DecidableEq

def Lifecycle.name : Lifecycle → String
  | .building => "Building"
  | .membersFinalized => "MembersFinalized"
  | .relationsFinalized => "RelationsFinalized"

/-- A breach of the rules on when a class may change. What was changed before it stays. -/
inductive Violation
  /-- A member for a class whose members are finished. -/
  | lateMember (member classId : String)
  /-- A relation for a frozen slot. -/
  | frozenSlot (slot : Slot) (classId : String)
deriving DecidableEq

def Violation.message : Violation → String
  | lateMember member classId =>
    "member `" ++ member ++ "` added to `" ++ classId ++ "` after its members were finished"
  | frozenSlot (direction, relation) classId =>
    let side := match direction with
      | .outbound => "Outbound"
      | .inbound => "Inbound"
    relation.name ++ " " ++ side ++ " relations of `" ++ classId ++ "` are already finalized"

structure ClassNode where
  handle : Handle
  element : Element
  typeParameters : List TypeRef := []
  /-- The members of each kind that the class has a list for. -/
  members : EnumMap ElementKind (Option (List Element)) := .ofFn fun _ => none
  cells : EnumMap Slot Cell := .ofFn fun _ => {}
  ledgers : EnumMap Direction (List Handle) := .ofFn fun _ => []
  lifecycle : Lifecycle := .building

namespace ClassNode

def attributes (n : ClassNode) : Attributes := n.element.attributes

def id (n : ClassNode) : String := n.element.id

def annotations (n : ClassNode) : List AnnotationRef := n.element.annotations

/-- Classes that others refer to without a declaration are never processed. -/
def isProcessed (n : ClassNode) : Bool := n.lifecycle = .relationsFinalized

def isInterface (n : ClassNode) : Bool := n.attributes.has .interface

def hasKind (n : ClassNode) (kind : ElementKind) : Bool := (n.members.get kind).isSome

def membersOf (n : ClassNode) (kind : ElementKind) : List Element := (n.members.get kind).getD []

/-- The kinds the class has a list for, in their order, with the lists. -/
def memberLists (n : ClassNode) : List (ElementKind × List Element) :=
  n.members.toList.filterMap fun (kind, list) => list.map (kind, ·)

def cell (n : ClassNode) (direction : Direction) (relation : Relation) : Cell :=
  n.cells.get (direction, relation)

def targets (n : ClassNode) (direction : Direction) (relation : Relation) : List Handle :=
  (n.cell direction relation).targets

def ledger (n : ClassNode) (direction : Direction) : List Handle := n.ledgers.get direction

def withParameters (n : ClassNode) (name : String) : String :=
  name ++ declareTypeParameters n.typeParameters

/-- Name and type parameters without qualifiers. -/
def shortName (n : ClassNode) : String := stripQualifiers (n.withParameters n.element.name)

/-- Id and type parameters. -/
def fullName (n : ClassNode) : String := n.withParameters n.id

def umlName (n : ClassNode) : String := ClassAtlas.umlName n.id

def umlNamespace (n : ClassNode) : Option String := ClassAtlas.umlNamespace n.id

/-- The node with a member at the end of the list of its kind. -/
def append (n : ClassNode) (member : Element) : ClassNode :=
  { n with members := n.members.modify member.kind fun list => some (list.getD [] ++ [member]) }

def addMember (n : ClassNode) (member : Element) : Except Violation ClassNode :=
  if n.lifecycle = .building then .ok (n.append member)
  else .error (.lateMember member.name n.id)

/-- The node after its ledger took note of a target, as it does for checkable relations. -/
def note (n : ClassNode) (direction : Direction) (relation : Relation) (target : Handle) : ClassNode :=
  if relation.isCheckable then { n with ledgers := n.ledgers.modify direction (· ++ [target]) } else n

/-- The node with a target in a cell. -/
def put (n : ClassNode) (direction : Direction) (relation : Relation) (target : Handle) : ClassNode :=
  { n with cells := n.cells.modify (direction, relation) (·.insert target) }

/-- Records one side of a relation. A checkable relation to a class that the ledger knows is dropped;
otherwise the ledger takes note before the cell is looked at. -/
def record (n : ClassNode) (direction : Direction) (relation : Relation) (target : Handle) :
    ClassNode × Option Violation :=
  if relation.isCheckable && target ∈ n.ledger direction then (n, none)
  else
    let n := n.note direction relation target
    if (n.cell direction relation).frozen then (n, some (.frozenSlot (direction, relation) n.id))
    else (n.put direction relation target, none)

/-- Freezes the chosen cells that are still open. -/
def freeze (n : ClassNode) (order : List Handle → List Handle) (chosen : Slot → Bool) : ClassNode :=
  { n with cells := n.cells.mapWith fun slot cell =>
      if chosen slot && !cell.frozen then cell.freeze order else cell }

/-- The members of every kind in order, with an empty list for each member kind without one. -/
def sortedMembers (policy : Policy) (members : EnumMap ElementKind (Option (List Element))) :
    EnumMap ElementKind (Option (List Element)) :=
  members.mapWith fun kind list =>
    match list with
    | some list => some (sortBy (fun a b => policy.compare a.attributes b.attributes) list)
    | none => if kind ∈ ElementKind.memberKinds then some [] else none

def sortMembers (n : ClassNode) (policy : Policy) : ClassNode :=
  { n with members := sortedMembers policy n.members }

/-- Slots that freeze when the members of a class are finished. -/
def freezesWithMembers : Slot → Bool
  | (.outbound, relation) => relation ∈ Relation.frozenWithMembers
  | (.inbound, _) => false

/-- Slots that are frozen once the relations of a class are finished: all outbound ones and the outer
class. -/
def freezesWithRelations : Slot → Bool
  | (.outbound, _) => true
  | (.inbound, relation) => relation = .innerClass

def finishMembers (n : ClassNode) (policy : Policy) (order : List Handle → List Handle) : ClassNode :=
  { (n.sortMembers policy).freeze order freezesWithMembers with lifecycle := .membersFinalized }

def finishRelations (n : ClassNode) (order : List Handle → List Handle) : ClassNode :=
  { n.freeze order freezesWithRelations with lifecycle := .relationsFinalized }

end ClassNode

end ClassAtlas
