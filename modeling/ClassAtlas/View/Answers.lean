import ClassAtlas.Hierarchy
import ClassAtlas.Summary
import ClassAtlas.UmlTable
import ClassAtlas.View.ClassRef

/-!
What an engine answers, besides member trees: its health, the list of classes, hierarchies, UML tables and
summaries, each with its JSON form.
-/

namespace ClassAtlas

structure Health where
  snapshotPath : String
  ordering : String
  classCount : Nat
  processedCount : Nat
  placeholderCount : Nat
deriving DecidableEq

def Health.toJson (h : Health) : Json :=
  .object [
    ("snapshot_path", .string h.snapshotPath),
    ("ordering", .string h.ordering),
    ("class_count", .number h.classCount),
    ("processed_count", .number h.processedCount),
    ("placeholder_count", .number h.placeholderCount)]

structure ClassList where
  items : List ClassRef
  total : Nat
deriving DecidableEq

def ClassList.toJson (l : ClassList) : Json :=
  .object [("items", .ofList ClassRef.toJson l.items), ("total", .number l.total)]

structure HierarchyView where
  ref : ClassRef
  count : Nat
  children : List HierarchyView

namespace HierarchyView

mutual

def ofTree (m : ClassModel) : HierarchyTree → HierarchyView
  | ⟨handle, count, children⟩ => ⟨.ofNode (m.classAt handle), count, ofTrees m children⟩

def ofTrees (m : ClassModel) : List HierarchyTree → List HierarchyView
  | [] => []
  | t :: ts => ofTree m t :: ofTrees m ts

end

mutual

def toJson : HierarchyView → Json
  | ⟨ref, count, children⟩ =>
    .object [("class", ref.toJson), ("subtree_classes_count", .number count),
      ("children", .array (listJson children))]

def listJson : List HierarchyView → List Json
  | [] => []
  | v :: vs => toJson v :: listJson vs

end

/-- An answer with one view for each root. -/
def rootsJson (roots : List HierarchyView) : Json := .object [("roots", .array (listJson roots))]

end HierarchyView

def UmlRow.toJson (r : UmlRow) : Json :=
  .object [
    ("prelude", .ofList StyledText.toJson r.stereotypes),
    ("visibility", .ofOption .ofChar r.visibility),
    ("name", .string r.name),
    ("parameters", .ofOption StyledText.toJson r.parameters),
    ("type_name", .ofOption StyledText.toJson r.declaredType),
    ("declaration_suffix", .ofOption .string r.suffix),
    ("style", (StyleView.ofStyle r.style).toJson),
    ("text", .string r.text)]

def UmlSection.toJson (s : UmlSection) : Json :=
  .object [
    ("kind", .string s.kind.name),
    ("title", s.title.toJson),
    ("rows", .ofList UmlRow.toJson s.rows)]

def UmlTable.toJson (t : UmlTable) : Json :=
  .object [
    ("class_id", .string t.classId),
    ("parents", .ofList StyledText.toJson t.parents),
    ("stereotypes", .ofList StyledText.toJson t.stereotypes),
    ("namespace", .ofOption .string t.namespaceText),
    ("name", t.name.toJson),
    ("sections", .ofList UmlSection.toJson t.sections)]

structure SummaryView where
  classId : String
  umlName : String
  summary : RelationSummary
deriving DecidableEq

namespace SummaryView

def ofNode (n : ClassNode) : SummaryView := ⟨n.id, n.umlName, n.summary⟩

/-- The counts as table cells: members, parents, children, used by, uses. -/
def cells (v : SummaryView) : List String :=
  [v.summary.members, v.summary.parents, v.summary.children, v.summary.usedBy, v.summary.uses].map
    countCell

def toJson (v : SummaryView) : Json :=
  .object [
    ("class_id", .string v.classId),
    ("full_name_uml", .string v.umlName),
    ("members", .number v.summary.members),
    ("parents", .number v.summary.parents),
    ("children", .number v.summary.children),
    ("used_by", .number v.summary.usedBy),
    ("uses", .number v.summary.uses),
    ("cells", .ofList .string v.cells)]

end SummaryView

end ClassAtlas
