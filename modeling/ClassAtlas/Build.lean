import ClassAtlas.Model.Cycle
import ClassAtlas.Snapshot.Basic

/-!
Building a model from a snapshot: all declared classes are registered, then their members and references
are added in order, then members are finished everywhere and relations where a class was declared. A
class that is referred to without a declaration is registered as a placeholder on its first mention and
never processed.
-/

namespace ClassAtlas

inductive BuildFailure
  | duplicateClass (id : String) (reason : Refusal)
  | refused (reason : Refusal)
  | violated (reason : Violation)
  | cyclic (cycle : ClassModel.Cyclic)

/-- The causes of a failure, outermost first. -/
def BuildFailure.chain : BuildFailure → List String
  | duplicateClass id reason => ["Invalid snapshot: duplicate class " ++ id, reason.message]
  | refused reason => [reason.message]
  | violated reason => [reason.message]
  | cyclic cycle => [cycle.message]

structure BuildStats where
  declared : Nat := 0
  placeholders : Nat := 0
  members : Nat := 0
  relations : Nat := 0
deriving DecidableEq

/-- Kind and modifiers of a placeholder, as the relation that mentions it suggests. -/
def placeholderRole : Relation → ElementKind × List Modifier
  | .superInterface => (.interface, [.interface, .abstract])
  | .throwsDependency => (.throwable, [.throwable])
  | .annotationDependency => (.annotationType, [.annotationType])
  | _ => (.classType, [])

def placeholder (id : String) (relation : Relation) : Element :=
  let (kind, modifiers) := placeholderRole relation
  { attributes :=
      { id := id, name := simpleName id, kind := kind, modifiers := .ofList modifiers } }

namespace Build

/-- A model under construction and the counts so far. -/
structure Progress where
  model : ClassModel
  stats : BuildStats := {}

/-- Registers the declared classes in order, with their handles. -/
def declare (m : ClassModel) : List ClassDeclaration →
    Except BuildFailure (ClassModel × List (ClassDeclaration × Handle))
  | [] => .ok (m, [])
  | d :: ds =>
    match m.addClass d.toElement d.typeParameters with
    | .error r => .error (.duplicateClass d.id r)
    | .ok (m, h) => do
      let (m, declared) ← declare m ds
      return (m, (d, h) :: declared)

def addMember (source : Handle) (p : Progress) (member : Element) : Except BuildFailure Progress :=
  match p.model.addMember source member with
  | (_, some v) => .error (.violated v)
  | (m, none) => .ok ⟨m, { p.stats with members := p.stats.members + 1 }⟩

/-- The class of an id; an unknown id is registered as a placeholder. -/
def resolve (p : Progress) (r : RelationDeclaration) : Except BuildFailure (Progress × Handle) :=
  match p.model.handle? r.target with
  | some h => .ok (p, h)
  | none =>
    match p.model.addClass (placeholder r.target r.relation) [] with
    | .error reason => .error (.refused reason)
    | .ok (m, h) => .ok (⟨m, { p.stats with placeholders := p.stats.placeholders + 1 }⟩, h)

def addReference (source : Handle) (p : Progress) (r : RelationDeclaration) :
    Except BuildFailure Progress := do
  let (p, target) ← resolve p r
  match p.model.connect source r.relation target with
  | (_, some v) => .error (.violated v)
  | (m, none) => .ok ⟨m, { p.stats with relations := p.stats.relations + 1 }⟩

/-- Adds the members and references of a class. -/
def wire (p : Progress) (declared : ClassDeclaration × Handle) : Except BuildFailure Progress := do
  let (d, source) := declared
  let p ← (d.members.map d.memberElement).foldlM (addMember source) p
  d.references.foldlM (addReference source) p

def finishMembers (m : ClassModel) : Except BuildFailure ClassModel :=
  match m.finishAllMembers with
  | (m, .ok _) => .ok m
  | (_, .error r) => .error (.refused r)

def finishRelations (m : ClassModel) (h : Handle) : Except BuildFailure ClassModel :=
  (m.finishRelations h).mapError .refused

/-- The model of a snapshot before its hierarchy is looked at. -/
def assemble (policy : Policy) (s : Snapshot) : Except BuildFailure Progress := do
  let (m, declared) ← declare (.empty policy) s.classes
  let p ← declared.foldlM wire ⟨m, { declared := declared.length }⟩
  let m ← finishMembers p.model
  let m ← (declared.map (·.2)).foldlM finishRelations m
  return ⟨m, p.stats⟩

end Build

/-- The model of a snapshot and the counts of what went into it. -/
def Snapshot.build (policy : Policy) (s : Snapshot) :
    Except BuildFailure (ClassModel × BuildStats) := do
  let p ← Build.assemble policy s
  match p.model.validateHierarchy with
  | .error c => .error (.cyclic c)
  | .ok () => .ok (p.model, p.stats)

end ClassAtlas
