import ClassAtlas.Model.Operation

/-!
Handles of 32 bits. A model that keeps its handles in 32 bits gives a class the lower 32 bits of its place. Up to
2 ^ 32 classes this is the place itself; beyond that two classes share a handle.
-/

namespace ClassAtlas

/-- The lower 32 bits of a place. -/
def narrow (place : Nat) : Handle := (UInt32.ofNat place).toNat

namespace ClassModel

/-- Registers a class under a handle of 32 bits; its id must be new. -/
def addClassNarrow (m : ClassModel) (element : Element) (typeParameters : List TypeRef) :
    Except Refusal (ClassModel × Handle) :=
  match m.handle? element.id with
  | some _ => .error (.alreadyRegistered element.id)
  | none => .ok (m.register (narrow m.size) element typeParameters, narrow m.size)

/-- One step of a run in which new classes get handles of 32 bits. -/
def stepNarrow (m : ClassModel) : Operation → ClassModel × Reply
  | .addClass element typeParameters =>
    match m.addClassNarrow element typeParameters with
    | .ok (m', h) => (m', .registered h)
    | .error r => (m, .refused r)
  | op => m.step op

def runNarrow (m : ClassModel) : List Operation → ClassModel × List Reply
  | [] => (m, [])
  | op :: ops =>
    let (m, reply) := m.stepNarrow op
    let (m, replies) := m.runNarrow ops
    (m, reply :: replies)

end ClassModel

end ClassAtlas
