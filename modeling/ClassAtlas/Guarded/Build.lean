import ClassAtlas.Build
import ClassAtlas.Guarded

/-!
Building a model with guarded look-ups. Besides a look-up that leads outside, nothing comes of a build that brings a
class a member or a relation too late, or that finishes more classes than there are.
-/

namespace ClassAtlas.Guarded

variable (m : ClassModel)

def addMember (h : Handle) (member : Element) : Option ClassModel := do
  let node ← classAt m h
  match node.addMember member with
  | .ok node => return m.modify h fun _ => node
  | .error _ => none

/-- Records one side of a relation. The target is looked up too, as it is reported with what is dropped. -/
def record (owner : Handle) (direction : Direction) (relation : Relation) (target : Handle) : Option ClassModel := do
  let node ← classAt m owner
  let _ ← classAt m target
  match node.record direction relation target with
  | (node, none) => return m.modify owner fun _ => node
  | (_, some _) => none

def recordBoth (source : Handle) (outbound : Relation) (target : Handle) (inbound : Relation) : Option ClassModel := do
  let m ← record m source .outbound outbound target
  record m target .inbound inbound source

def addRelation (source : Handle) (relation : Relation) (target : Handle) : Option ClassModel :=
  if source = target then some m else recordBoth m source relation target relation

def addSuperInterface (source target : Handle) : Option ClassModel :=
  if source = target then some m
  else do
    let node ← classAt m source
    recordBoth m source .superInterface target (if node.isInterface then .superInterface else .superClass)

def connect (source : Handle) (relation : Relation) (target : Handle) : Option ClassModel :=
  if relation = .superInterface then addSuperInterface m source target else addRelation m source relation target

/-- A part of a build that may come to nothing, and otherwise has a result or fails. -/
abbrev Stage := ExceptT BuildFailure Option

def withMember (source : Handle) (p : Build.Progress) (member : Element) : Stage Build.Progress := do
  let m ← addMember p.model source member
  return ⟨m, { p.stats with members := p.stats.members + 1 }⟩

/-- Nothing is looked up under a handle to find the class of an id. -/
def withReference (source : Handle) (p : Build.Progress) (r : RelationDeclaration) : Stage Build.Progress := do
  let (p, target) ← MonadExcept.ofExcept (Build.resolve p r)
  let m ← connect p.model source r.relation target
  return ⟨m, { p.stats with relations := p.stats.relations + 1 }⟩

def withClass (p : Build.Progress) (declared : ClassDeclaration × Handle) : Stage Build.Progress := do
  let (d, source) := declared
  let p ← (d.members.map d.memberElement).foldlM (withMember source) p
  d.references.foldlM (withReference source) p

def finishEach (finish : ClassModel → Handle → Option (Except Refusal ClassModel)) (hs : List Handle) :
    Stage ClassModel :=
  hs.foldlM (fun m h => ExceptT.mk ((finish m h).map (·.mapError .refused))) m

def assemble (policy : Policy) (s : Snapshot) : Stage Build.Progress := do
  let (m, declared) ← MonadExcept.ofExcept (Build.declare (.empty policy) s.classes)
  let p ← declared.foldlM withClass ⟨m, { declared := declared.length }⟩
  let m ← finishEach p.model finishMembers (p.model.handlesIn .building)
  let m ← finishEach m finishRelations (declared.map (·.2))
  return ⟨m, p.stats⟩

def validateHierarchy : Stage Unit := do
  match ← superClassCycle m with
  | none => return ()
  | some h =>
    let n ← classAt m h
    throw (.cyclic ⟨n.id⟩)

def build (policy : Policy) (s : Snapshot) : Option (Except BuildFailure (ClassModel × BuildStats)) := ExceptT.run do
  let p ← assemble policy s
  validateHierarchy p.model
  return (p.model, p.stats)

end ClassAtlas.Guarded
