import ClassAtlas.Engine

/-!
Reports: the answers of an engine as lines of text. Trees are written with two spaces of indentation per
level, each node before its children; a hierarchy line ends with the number of classes below it, so that
the lines alone determine the trees.
-/

namespace ClassAtlas

/-- A class on a line of text. -/
def ClassRef.line (c : ClassRef) : String :=
  if c.processed then c.label else c.label ++ " (unprocessed)"

namespace Report

def repeated (c : Char) (count : Nat) : String := String.ofList (List.replicate count c)

/-- A line two spaces further in for each level. -/
def indented (depth : Nat) (line : String) : String := repeated ' ' (2 * depth) ++ line

/-- A text in a column that is four characters wide. -/
def column (text : String) : String := repeated ' ' (4 - text.length) ++ text

end Report

open Report

def ClassList.lines (l : ClassList) : List String :=
  [toString l.total ++ " classes:", repeated '=' 80] ++
    l.items.map fun c => c.line ++ "  " ++ c.fullName

namespace HierarchyView

/-- Line of a class with the number of classes below it, unless there are none. -/
def line (ref : ClassRef) (count : Nat) : String :=
  if count = 0 then ref.line else ref.line ++ " (" ++ toString count ++ ")"

mutual

/-- The nodes of a tree with their depths, each before its children. -/
def outlineAt (depth : Nat) : HierarchyView → List (Nat × ClassRef × Nat)
  | ⟨ref, count, children⟩ => (depth, ref, count) :: outlinesAt (depth + 1) children

def outlinesAt (depth : Nat) : List HierarchyView → List (Nat × ClassRef × Nat)
  | [] => []
  | v :: vs => outlineAt depth v ++ outlinesAt depth vs

end

def lines (roots : List HierarchyView) : List String :=
  (outlinesAt 0 roots).map fun (depth, ref, count) => indented depth (line ref count)

end HierarchyView

/-- The item as a line of text that also tells whether a class is processed. -/
def TreeViewItem.line : TreeViewItem → String
  | .classRef ref => ref.line
  | item => item.label

def TreeView.lines (t : TreeView) : List String :=
  (t.outlineAt 0).map fun (depth, item) => indented depth item.line

/-- The line of a member, after its stereotypes. -/
def UmlRow.lines (r : UmlRow) : List String :=
  if r.stereotypes.isEmpty then [r.text]
  else ["   " ++ " ".intercalate (r.stereotypes.map (·.text)), r.text]

def UmlSection.lines (s : UmlSection) : List String :=
  [repeated '-' 60, s.title.text] ++ s.rows.flatMap (·.lines)

def UmlTable.lines (t : UmlTable) : List String :=
  [repeated '=' 60] ++
    (if t.parents.isEmpty then [] else t.parents.map (·.text) ++ [""]) ++
    t.stereotypes.map (·.text) ++ t.namespaceText.toList ++ [t.name.text] ++
    t.sections.flatMap (·.lines) ++ [repeated '=' 60]

namespace SummaryView

def row (title : String) (cells : List String) : String :=
  title ++ " ".intercalate (cells.map column)

/-- The relation counts stand below arrows: up to the parents, down to the children, from the users and
to the used. -/
def lines (v : SummaryView) : List String := [
  v.umlName,
  row "Members:   " (v.cells.take 1),
  row "Relations: " ["↑", "↓", "←", "→"],
  row "           " (v.cells.drop 1)]

end SummaryView

/-- Lines that tell that a snapshot loads. -/
def Health.lines (h : Health) : List String := [
  "Snapshot OK: " ++ h.snapshotPath,
  "  Classes: " ++ toString h.classCount,
  "  Processed: " ++ toString h.processedCount,
  "  Placeholders: " ++ toString h.placeholderCount,
  "  Ordering: " ++ h.ordering]

end ClassAtlas
