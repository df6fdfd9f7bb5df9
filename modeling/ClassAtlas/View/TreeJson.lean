import ClassAtlas.View.Tree

/-!
Reading tree views. The children are read in passing; all other members are kept, and after the object
has ended the type among them tells which item they describe.
-/

namespace ClassAtlas

namespace TreeViewItem

inductive Variant
  | classRef
  | element
  | annotationRef
  | group
deriving DecidableEq

def variants : List (String × Variant) :=
  [("class", .classRef), ("element", .element), ("annotation", .annotationRef), ("group", .group)]

/-- A variant by its name, or by its number from zero. -/
def readVariant : Reader Variant
  | .string (some name) => Reader.pick variants name
  | .number n =>
    match n.natural?.bind fun k => variants[k]? with
    | some (_, v) => .ok v
    | none => .error .invalid
  | _ => .error .invalid

/-- Takes the type out of members that were kept. -/
def takeType : List (Option String × Document) → Option Variant →
    Except Fault (Option Variant × List (Option String × Document))
  | [], found => .ok (found, [])
  | (key, value) :: members, found =>
    if key = some "type" then
      match found with
      | some _ => .error (.duplicate "type")
      | none => do
        let v ← readVariant value
        takeType members (some v)
    else do
      let (found, others) ← takeType members found
      return (found, (key, value) :: others)

inductive ClassField
  | ref
deriving DecidableEq

def classShape : Shape ClassField where
  fields := [.ref]
  key _ := "class"
  Value _ := ClassRef
  read _ := ClassRef.readKept
  absent _ := none

inductive ElementField
  | id
  | kind
  | visibility
  | text
  | style
deriving DecidableEq

def elementShape : Shape ElementField where
  fields := [.id, .kind, .visibility, .text, .style]
  key
    | .id => "id"
    | .kind => "kind"
    | .visibility => "visibility"
    | .text => "text"
    | .style => "style"
  Value
    | .id | .text => String
    | .kind => ElementKind
    | .visibility => Visibility
    | .style => StyleView
  read
    | .id | .text => Reader.string
    | .kind => Reader.keptVariant (variantsOf ElementKind ElementKind.name)
    | .visibility => Reader.keptVariant (variantsOf Visibility Visibility.name)
    | .style => StyleView.read
  absent _ := none

inductive AnnotationField
  | id
  | name
deriving DecidableEq

def annotationShape : Shape AnnotationField where
  fields := [.id, .name]
  key
    | .id => "id"
    | .name => "name"
  Value _ := String
  read _ := Reader.string
  absent _ := none

inductive GroupField
  | marker
  | symbol
  | title
  | color
  | count
deriving DecidableEq

/-- Counts are machine words. -/
def countBound : Nat := Nat.pow 2 64

def groupShape : Shape GroupField where
  fields := [.marker, .symbol, .title, .color, .count]
  key
    | .marker => "marker"
    | .symbol => "symbol"
    | .title => "title"
    | .color => "color"
    | .count => "count"
  Value
    | .marker | .symbol | .title => String
    | .color => Option String
    | .count => Option Nat
  read
    | .marker | .symbol | .title => Reader.string
    | .color => Reader.optional Reader.string
    | .count => Reader.optional (Reader.natural countBound)
  absent
    | .marker | .symbol | .title => none
    | .color => some none
    | .count => some none

def ofMembers (members : List (Option String × Document)) : Variant → Except Fault TreeViewItem
  | .classRef => do
    let draft ← classShape.ofKept members
    return .classRef (← draft.take .ref)
  | .element => do
    let draft ← elementShape.ofKept members
    return .element (← draft.take .id) (← draft.take .kind) (← draft.take .visibility)
      (← draft.take .text) (← draft.take .style)
  | .annotationRef => do
    let draft ← annotationShape.ofKept members
    return .annotationRef (← draft.take .id) (← draft.take .name)
  | .group => do
    let draft ← groupShape.ofKept members
    return .group (← draft.take .marker) (← draft.take .symbol) (← draft.take .title)
      (← draft.take .color) (← draft.take .count)

/-- The item that kept members describe. -/
def ofKept (members : List (Option String × Document)) : Except Fault TreeViewItem := do
  let (found, others) ← takeType members none
  match found with
  | some v => ofMembers others v
  | none => .error (.missing "type")

end TreeViewItem

namespace TreeView

inductive Field
  | children
deriving DecidableEq

def shape (child : Reader TreeView) : Shape Field where
  fields := [.children]
  key _ := "children"
  Value _ := List TreeView
  read _ := Reader.list child
  absent _ := some []

def readWith (child : Reader TreeView) : Reader TreeView := fun d => do
  let (draft, others) ← (shape child).draftKeeping d
  let children ← draft.take .children
  return ⟨← TreeViewItem.ofKept others, children⟩

/-- Reads trees of at most `depth` levels. -/
def readAt : Nat → Reader TreeView
  | 0 => fun _ => .error .invalid
  | depth + 1 => readWith (readAt depth)

/-- No document nests more trees than the limit allows. -/
def read : Reader TreeView := readAt nestingLimit

def parse (text : String) : Except Fault TreeView := read.parse text

end TreeView

end ClassAtlas
