import ClassAtlas.MemberTree
import ClassAtlas.UmlTable
import ClassAtlas.View.ClassRef

/-!
Member trees as they are handed out: every item carries the texts that show it. A tree is an object
whose `type` tells which item it is; the members of the item and the children stand beside it.
-/

namespace ClassAtlas

inductive TreeViewItem
  | classRef (ref : ClassRef)
  | element (id : String) (kind : ElementKind) (visibility : Visibility) (text : String)
      (style : StyleView)
  | annotationRef (id name : String)
  | group (marker symbol title : String) (color : Option String) (count : Option Nat)
deriving DecidableEq

structure TreeView where
  item : TreeViewItem
  children : List TreeView := []

namespace TreeViewItem

def ofItem (m : ClassModel) : TreeItem → TreeViewItem
  | .classNode h => .classRef (.ofNode (m.classAt h))
  | .element e =>
    .element e.id e.kind e.attributes.visibility (UmlRow.ofMember e).text
      (.ofStyle (.forElement e.attributes))
  | .annotationRef a => .annotationRef a.id a.name
  | .group l => .group l.marker.name l.symbol l.title (l.color.map (·.text)) l.count

/-- The item as a line of text. -/
def label : TreeViewItem → String
  | .classRef ref => ref.label
  | .element _ _ _ text _ => text
  | .annotationRef _ name => "@" ++ name
  | .group _ symbol title _ count => GroupLabel.line symbol title count

def members : TreeViewItem → List (String × Json)
  | .classRef ref => [("type", .string "class"), ("class", ref.toJson)]
  | .element id kind visibility text style =>
    [("type", .string "element"), ("id", .string id), ("kind", .string kind.name),
      ("visibility", .string visibility.name), ("text", .string text), ("style", style.toJson)]
  | .annotationRef id name => [("type", .string "annotation"), ("id", .string id), ("name", .string name)]
  | .group marker symbol title color count =>
    [("type", .string "group"), ("marker", .string marker), ("symbol", .string symbol),
      ("title", .string title)] ++
    Json.member? "color" .string color ++ Json.member? "count" .number count

end TreeViewItem

namespace TreeView

mutual

def ofTree (m : ClassModel) : MemberTree → TreeView
  | ⟨item, children⟩ => ⟨.ofItem m item, ofTrees m children⟩

def ofTrees (m : ClassModel) : List MemberTree → List TreeView
  | [] => []
  | t :: ts => ofTree m t :: ofTrees m ts

end

mutual

/-- The lines of a tree with their depths, each node before its children. -/
def outlineAt (depth : Nat) : TreeView → List (Nat × TreeViewItem)
  | ⟨item, children⟩ => (depth, item) :: outlinesAt (depth + 1) children

def outlinesAt (depth : Nat) : List TreeView → List (Nat × TreeViewItem)
  | [] => []
  | t :: ts => outlineAt depth t ++ outlinesAt depth ts

end

def outline (t : TreeView) : List (Nat × String) :=
  (t.outlineAt 0).map fun (depth, item) => (depth, item.label)

mutual

/-- Children are left out where there are none. -/
def toJson : TreeView → Json
  | ⟨item, []⟩ => .object item.members
  | ⟨item, child :: children⟩ =>
    .object (item.members ++ [("children", .array (toJson child :: listJson children))])

def listJson : List TreeView → List Json
  | [] => []
  | t :: ts => toJson t :: listJson ts

end

end TreeView

/-- The view of the member tree of a class. -/
def ClassModel.treeView (m : ClassModel) (h : Handle) : TreeView := .ofTree m (m.memberTree h)

end ClassAtlas
