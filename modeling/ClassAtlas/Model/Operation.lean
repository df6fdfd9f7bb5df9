import ClassAtlas.Model.Basic

/-!
Operations on a model as values. An operation names classes of the model that it is carried out on. A run
applies operations one after the other; an operation that is refused leaves the model as it was, one that
is a violation may leave a part of its change, and the run goes on in either case.
-/

namespace ClassAtlas

inductive Operation
  | addClass (element : Element) (typeParameters : List TypeRef)
  | addMember (handle : Handle) (member : Element)
  | addRelation (source : Handle) (relation : Relation) (target : Handle)
  | addSuperInterface (source target : Handle)
  | finishMembers (handle : Handle)
  | finishRelations (handle : Handle)
  | finishAllMembers
  | finishAllRelations

/-- What an operation answers. -/
inductive Reply
  | registered (handle : Handle)
  | done
  | finished (count : Nat)
  | refused (reason : Refusal)
  | violated (reason : Violation)

namespace Reply

def ofViolation : Option Violation → Reply
  | none => .done
  | some v => .violated v

def isViolation : Reply → Bool
  | violated _ => true
  | _ => false

/-- The operation was carried out in full. -/
def isAccepted : Reply → Bool
  | registered _ | done | finished _ => true
  | refused _ | violated _ => false

end Reply

namespace Operation

/-- The handles that an operation names. -/
def handles : Operation → List Handle
  | addClass _ _ | finishAllMembers | finishAllRelations => []
  | addMember h _ | finishMembers h | finishRelations h => [h]
  | addRelation source _ target | addSuperInterface source target => [source, target]

end Operation

namespace ClassModel

def keeping (m : ClassModel) : Except Refusal ClassModel → ClassModel × Reply
  | .ok m' => (m', .done)
  | .error r => (m, .refused r)

/-- Carries out an operation on handles of the model. -/
def perform (m : ClassModel) : Operation → ClassModel × Reply
  | .addClass element typeParameters =>
    match m.addClass element typeParameters with
    | .ok (m', h) => (m', .registered h)
    | .error r => (m, .refused r)
  | .addMember h member =>
    let (m', violation) := m.addMember h member
    (m', .ofViolation violation)
  | .addRelation source relation target =>
    let (m', violation) := m.addRelation source relation target
    (m', .ofViolation violation)
  | .addSuperInterface source target =>
    let (m', violation) := m.addSuperInterface source target
    (m', .ofViolation violation)
  | .finishMembers h => m.keeping (m.finishMembers h)
  | .finishRelations h => m.keeping (m.finishRelations h)
  | .finishAllMembers =>
    match m.finishAllMembers with
    | (m', .ok n) => (m', .finished n)
    | (m', .error r) => (m', .refused r)
  | .finishAllRelations =>
    match m.finishAllRelations with
    | (m', .ok n) => (m', .finished n)
    | (m', .error r) => (m', .refused r)

/-- The precondition of an operation: the handles that it names come from the model. -/
def Admits (m : ClassModel) (op : Operation) : Prop := ∀ h ∈ op.handles, h < m.size

instance (m : ClassModel) (op : Operation) : Decidable (m.Admits op) :=
  inferInstanceAs (Decidable (∀ h ∈ op.handles, h < m.size))

/-- One step of a run, which carries out what meets the precondition. Anything else is no operation on the
model, and nothing is done for it. -/
def step (m : ClassModel) (op : Operation) : ClassModel × Reply :=
  match op.handles.find? fun h => m.size ≤ h with
  | some h => (m, .refused (.outOfBounds m.size h))
  | none => m.perform op

/-- The model after a run, and its replies in order. -/
def run (m : ClassModel) : List Operation → ClassModel × List Reply
  | [] => (m, [])
  | op :: ops =>
    let (m, reply) := m.step op
    let (m, replies) := m.run ops
    (m, reply :: replies)

/-- The operations of a list that meet their precondition when their turn comes in a run. -/
def admitted (m : ClassModel) : List Operation → List Operation
  | [] => []
  | op :: ops => if m.Admits op then op :: (m.step op).1.admitted ops else m.admitted ops

end ClassModel

end ClassAtlas
