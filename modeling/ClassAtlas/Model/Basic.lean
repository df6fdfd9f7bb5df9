import ClassAtlas.Model.Node

/-!
Class models: classes numbered in the order of their registration, connected by relations that both ends
hold. A model is built in three stages: classes, members and relations are added in any order; then the
members of every class are finished; then, once no class takes members any more, its relations.
-/

namespace ClassAtlas

/-- Why a model does not do what it is asked to; it is left as it was. -/
inductive Refusal
  | alreadyRegistered (id : String)
  /-- There are fewer classes. Handles come from the model, so nothing that it is rightly asked ends like this. -/
  | outOfBounds (size : Nat) (handle : Handle)
  | membersFinishedTwice (id : String) (state : Lifecycle)
  | relationsBeforeMembers (id : String)
  | relationsFinishedTwice (id : String)
  /-- Other classes still take members, and these may refer to the class. -/
  | stillBuilding (id : String) (pending : Nat)
deriving DecidableEq

def Refusal.message : Refusal → String
  | alreadyRegistered id => "Class already registered: " ++ id
  | outOfBounds size handle =>
    "index out of bounds: the len is " ++ toString size ++ " but the index is " ++ toString handle
  | membersFinishedTwice id state =>
    "Members of " ++ id ++ " finished twice (state: " ++ state.name ++ ")"
  | relationsBeforeMembers id => "Relations of " ++ id ++ " finished before its members"
  | relationsFinishedTwice id => "Relations of " ++ id ++ " finished twice"
  | stillBuilding id pending =>
    "Relations of " ++ id ++ " finished while " ++ toString pending ++
      " classes are still building members"

structure ClassModel where
  policy : Policy
  classes : List ClassNode := []
  /-- The ids of the classes with their handles, the latest first. -/
  index : List (String × Handle) := []
  /-- Number of classes that still take members. -/
  pending : Nat := 0

namespace ClassModel

def empty (policy : Policy) : ClassModel := { policy := policy }

def size (m : ClassModel) : Nat := m.classes.length

/-- The class of a handle. Every handle that a model holds is one of its own, so the blank class for
other handles never shows. -/
def classAt (m : ClassModel) (h : Handle) : ClassNode :=
  m.classes.getD h
    { handle := h, element := { attributes := { id := "", name := "", kind := .classType } } }

def handle? (m : ClassModel) (id : String) : Option Handle := m.index.lookup id

def handles (m : ClassModel) : List Handle := m.classes.map (·.handle)

/-- Compares two classes by the policy of the model. -/
def compare (m : ClassModel) (a b : Handle) : Ordering :=
  m.policy.compare (m.classAt a).attributes (m.classAt b).attributes

def sortHandles (m : ClassModel) (hs : List Handle) : List Handle := sortBy m.compare hs

def modify (m : ClassModel) (h : Handle) (f : ClassNode → ClassNode) : ClassModel :=
  { m with classes := m.classes.modify h f }

/-- The model with one more class under a handle. -/
def register (m : ClassModel) (handle : Handle) (element : Element) (typeParameters : List TypeRef) :
    ClassModel :=
  { m with
    classes := m.classes ++ [{ handle := handle, element := element, typeParameters := typeParameters }]
    index := (element.id, handle) :: m.index
    pending := m.pending + 1 }

/-- The model with one more class, which takes the next handle. -/
def extend (m : ClassModel) (element : Element) (typeParameters : List TypeRef) : ClassModel :=
  m.register m.size element typeParameters

/-- Registers a class; its id must be new. -/
def addClass (m : ClassModel) (element : Element) (typeParameters : List TypeRef) :
    Except Refusal (ClassModel × Handle) :=
  match m.handle? element.id with
  | some _ => .error (.alreadyRegistered element.id)
  | none => .ok (m.extend element typeParameters, m.size)

/-- Appends a member to the list of its kind. -/
def addMember (m : ClassModel) (h : Handle) (member : Element) : ClassModel × Option Violation :=
  match (m.classAt h).addMember member with
  | .ok node => (m.modify h fun _ => node, none)
  | .error v => (m, some v)

/-- Records one side of a relation at its owner. -/
def record (m : ClassModel) (owner : Handle) (direction : Direction) (relation : Relation)
    (target : Handle) : ClassModel × Option Violation :=
  let (node, violation) := (m.classAt owner).record direction relation target
  (m.modify owner fun _ => node, violation)

/-- Records the outbound side and then, unless that was a violation, the inbound side, which may be
listed under another relation. -/
def recordBoth (m : ClassModel) (source : Handle) (outbound : Relation) (target : Handle)
    (inbound : Relation) : ClassModel × Option Violation :=
  match m.record source .outbound outbound target with
  | (m, some v) => (m, some v)
  | (m, none) => m.record target .inbound inbound source

/-- Relates two classes. A class is never related to itself. -/
def addRelation (m : ClassModel) (source : Handle) (relation : Relation) (target : Handle) :
    ClassModel × Option Violation :=
  if source = target then (m, none) else m.recordBoth source relation target relation

/-- Makes `source` extend or realize the interface `target`. The interface lists a sub-interface as such
and a realizing class among its subclasses. -/
def addSuperInterface (m : ClassModel) (source target : Handle) : ClassModel × Option Violation :=
  if source = target then (m, none)
  else
    let listed := if (m.classAt source).isInterface then Relation.superInterface else .superClass
    m.recordBoth source .superInterface target listed

/-- Relates two classes as a declaration means it. -/
def connect (m : ClassModel) (source : Handle) (relation : Relation) (target : Handle) :
    ClassModel × Option Violation :=
  if relation = .superInterface then m.addSuperInterface source target
  else m.addRelation source relation target

/-- Sorts the members of a class and freezes its outbound super types and nestings. -/
def finishMembers (m : ClassModel) (h : Handle) : Except Refusal ClassModel :=
  match m.classes[h]? with
  | none => .error (.outOfBounds m.size h)
  | some node =>
    if node.lifecycle = .building then
      .ok { m.modify h fun n => n.finishMembers m.policy m.sortHandles with pending := m.pending - 1 }
    else .error (.membersFinishedTwice node.id node.lifecycle)

/-- Freezes the outer class and every outbound relation of a class. What refers to the class depends on
all others, so this waits until none of them takes members. -/
def finishRelations (m : ClassModel) (h : Handle) : Except Refusal ClassModel :=
  match m.classes[h]? with
  | none => .error (.outOfBounds m.size h)
  | some node =>
    match node.lifecycle with
    | .building => .error (.relationsBeforeMembers node.id)
    | .relationsFinalized => .error (.relationsFinishedTwice node.id)
    | .membersFinalized =>
      if m.pending = 0 then .ok (m.modify h fun n => n.finishRelations m.sortHandles)
      else .error (.stillBuilding node.id m.pending)

/-- Finishes classes one after the other up to the first refusal; those before it stay finished. -/
def finishEach (finish : ClassModel → Handle → Except Refusal ClassModel) (m : ClassModel) :
    List Handle → ClassModel × Option Refusal
  | [] => (m, none)
  | h :: hs =>
    match finish m h with
    | .ok m => finishEach finish m hs
    | .error r => (m, some r)

def handlesIn (m : ClassModel) (state : Lifecycle) : List Handle :=
  (m.classes.filter fun n => n.lifecycle = state).map (·.handle)

/-- Finishes all classes in a state, and counts them. -/
def finishAllIn (m : ClassModel) (state : Lifecycle)
    (finish : ClassModel → Handle → Except Refusal ClassModel) : ClassModel × Except Refusal Nat :=
  let waiting := m.handlesIn state
  match m.finishEach finish waiting with
  | (m, none) => (m, .ok waiting.length)
  | (m, some r) => (m, .error r)

def finishAllMembers (m : ClassModel) : ClassModel × Except Refusal Nat :=
  m.finishAllIn .building finishMembers

def finishAllRelations (m : ClassModel) : ClassModel × Except Refusal Nat :=
  m.finishAllIn .membersFinalized finishRelations

end ClassModel

end ClassAtlas
