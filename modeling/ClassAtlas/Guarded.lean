import ClassAtlas.Hierarchy
import ClassAtlas.MemberTree
import ClassAtlas.Summary
import ClassAtlas.UmlTable

/-!
What a model does with handles, with every look-up in its arena guarded. Where a handle is no place of the arena
there is no result at all, while the functions without guards go on with a blank class. Nor is there one where the
number of classes that take members would fall below zero.
-/

namespace ClassAtlas.Guarded

variable (m : ClassModel)

def classAt (h : Handle) : Option ClassNode := m.classes[h]?

/-- Sorts handles by the attributes of their classes, each of which is looked up. -/
def sortHandles (hs : List Handle) : Option (List Handle) := do
  let keyed ← hs.mapM fun h => do
    let n ← classAt m h
    return (h, n.attributes)
  return (sortBy (fun a b => m.policy.compare a.2 b.2) keyed).map (·.1)

/-- A cell after freezing, if it is one of those to freeze. -/
def freezeCell (chosen : Slot → Bool) (slot : Slot) (cell : Cell) : Option Cell :=
  if chosen slot && !cell.frozen then do
    let ordered ← sortHandles m cell.targets
    return cell.freeze fun _ => ordered
  else some cell

def freeze (n : ClassNode) (chosen : Slot → Bool) : Option ClassNode := do
  let cells ← EnumMap.ofFn? fun slot => freezeCell m chosen slot (n.cells.get slot)
  return { n with cells := cells }

def finishMembers (h : Handle) : Option (Except Refusal ClassModel) := do
  let node ← classAt m h
  if node.lifecycle = .building then
    let frozen ← freeze m (node.sortMembers m.policy) ClassNode.freezesWithMembers
    let finished := { frozen with lifecycle := .membersFinalized }
    if m.pending = 0 then none
    else return .ok { m.modify h fun _ => finished with pending := m.pending - 1 }
  else return .error (.membersFinishedTwice node.id node.lifecycle)

def finishRelations (h : Handle) : Option (Except Refusal ClassModel) := do
  let node ← classAt m h
  match node.lifecycle with
  | .building => return .error (.relationsBeforeMembers node.id)
  | .relationsFinalized => return .error (.relationsFinishedTwice node.id)
  | .membersFinalized =>
    if m.pending = 0 then
      let frozen ← freeze m node ClassNode.freezesWithRelations
      return .ok (m.modify h fun _ => { frozen with lifecycle := .relationsFinalized })
    else return .error (.stillBuilding node.id m.pending)

/-- The graph of the hierarchy. Both ends of an edge are looked up among the nodes of the graph, which are as many
as the classes. -/
def hierarchyGraph : Option EdgeGraph := do
  let nodes := List.range m.size
  let edges ← m.classes.mapM fun n => do
    let above ← nodes[n.handle]?
    (n.targets .inbound .superClass).mapM fun h => do
      let below ← nodes[h]?
      return (above, below)
  return { size := m.size, edges := edges.flatten }

/-- The handle of the class whose node is on a cycle. -/
def superClassCycle : Option (Option Handle) := do
  let graph ← hierarchyGraph m
  match graph.cycle? with
  | none => return none
  | some node =>
    let n ← classAt m node
    return some n.handle

def hierarchyTo : Nat → Handle → Option HierarchyTree
  | 0, h => do
    let n ← classAt m h
    return .ofChildren n.handle []
  | depth + 1, h => do
    let n ← classAt m h
    let subclasses ← sortHandles m (n.targets .inbound .superClass)
    let children ← subclasses.mapM (hierarchyTo depth)
    return .ofChildren n.handle children

def roots : Option (List Handle) := sortHandles m ((m.classes.filter ClassModel.isRoot).map (·.handle))

def relationBranch (n : ClassNode) : Relation × Direction × String → Option (List MemberTree)
  | (relation, direction, title) => do
    let ordered ← sortHandles m (n.targets direction relation)
    let leaves ← ordered.mapM fun h => do
      let target ← classAt m h
      return ⟨.classNode target.handle, []⟩
    return MemberTree.branch (.ofRelation relation direction title) leaves

def memberTree (h : Handle) : Option MemberTree := do
  let n ← classAt m h
  let branches ← MemberTree.relationGroups.mapM (relationBranch m n)
  return ⟨.classNode n.handle,
    MemberTree.branch (fun _ => .content) (MemberTree.contentBranches n) ++
      MemberTree.branch (fun _ => .relations) branches.flatten⟩

def umlParents (n : ClassNode) : Option (List StyledText) :=
  let parents := n.targets .outbound .superClass
  let parents := if parents.isEmpty then n.targets .outbound .superInterface else parents
  parents.mapM fun h => do
    let parent ← classAt m h
    return ⟨parent.shortName, .forElement parent.attributes⟩

def umlTable (h : Handle) : Option UmlTable := do
  let n ← classAt m h
  let parents ← umlParents m n
  return {
    classId := n.id
    parents := parents
    stereotypes := UmlRow.annotationsOf n.annotations ++ UmlRow.stereotypesOf n.attributes
    namespaceText := n.umlNamespace
    name := ⟨n.shortName, { TextStyle.forElement n.attributes with color := Palette.umlClassName.color }⟩
    sections := ElementKind.umlKinds.filterMap (ClassModel.umlSection n) }

def summary (h : Handle) : Option RelationSummary := do
  let n ← classAt m h
  return n.summary

end ClassAtlas.Guarded
