import ClassAtlas.Json.Record
import ClassAtlas.Json.Value
import ClassAtlas.Model.Basic
import ClassAtlas.Style.Text

/-!
References to classes as labels show them: a badge for the kind, the short name, and the style and color
of the name. They are written as JSON and read back from it.
-/

namespace ClassAtlas

/-- The part of a text style that every label has. -/
structure StyleView where
  bold : Bool
  underline : Bool
deriving DecidableEq

namespace StyleView

def ofStyle (s : TextStyle) : StyleView := ⟨s.bold, s.underline⟩

def members (s : StyleView) : List (String × Json) :=
  [("bold", .bool s.bold), ("underline", .bool s.underline)]

def toJson (s : StyleView) : Json := .object s.members

inductive Field
  | bold
  | underline
deriving DecidableEq

def shape : Shape Field where
  fields := [.bold, .underline]
  key
    | .bold => "bold"
    | .underline => "underline"
  Value _ := Bool
  read _ := Reader.bool
  absent _ := none

def read : Reader StyleView := fun d => do
  let draft ← shape.draft d
  return ⟨← draft.take .bold, ← draft.take .underline⟩

end StyleView

/-- A styled text: its color is left out where it has none. -/
def StyledText.toJson (t : StyledText) : Json :=
  .object ([("text", .string t.text)] ++
    Json.member? "color" (fun c : Rgb => .string c.text) t.style.color ++
    (StyleView.ofStyle t.style).members)

structure ClassRef where
  id : String
  name : String
  /-- Id with type parameters. -/
  fullName : String
  kind : ElementKind
  symbol : Char
  kindColor : String
  processed : Bool
  /-- Black for processed classes, grey for placeholders. -/
  color : String
  style : StyleView
deriving DecidableEq

namespace ClassRef

def ofNode (n : ClassNode) : ClassRef where
  id := n.id
  name := n.shortName
  fullName := n.fullName
  kind := n.element.kind
  symbol := n.element.kind.symbol
  kindColor := n.element.kind.color.text
  processed := n.isProcessed
  color := (Palette.forClass n.isProcessed).color.text
  style := .ofStyle (.forElement n.attributes)

/-- The badge and the name. -/
def label (c : ClassRef) : String := "[" ++ String.singleton c.symbol ++ "] " ++ c.name

def toJson (c : ClassRef) : Json :=
  .object [
    ("id", .string c.id),
    ("name", .string c.name),
    ("full_name", .string c.fullName),
    ("kind", .string c.kind.name),
    ("symbol", .ofChar c.symbol),
    ("kind_color", .string c.kindColor),
    ("processed", .bool c.processed),
    ("color", .string c.color),
    ("style", c.style.toJson)]

inductive Field
  | id
  | name
  | fullName
  | kind
  | symbol
  | kindColor
  | processed
  | color
  | style
deriving DecidableEq

def shape : Shape Field where
  fields := [.id, .name, .fullName, .kind, .symbol, .kindColor, .processed, .color, .style]
  key
    | .id => "id"
    | .name => "name"
    | .fullName => "full_name"
    | .kind => "kind"
    | .symbol => "symbol"
    | .kindColor => "kind_color"
    | .processed => "processed"
    | .color => "color"
    | .style => "style"
  Value
    | .id | .name | .fullName | .kindColor | .color => String
    | .kind => ElementKind
    | .symbol => Char
    | .processed => Bool
    | .style => StyleView
  read
    | .id | .name | .fullName | .kindColor | .color => Reader.string
    | .kind => Reader.keptVariant (variantsOf ElementKind ElementKind.name)
    | .symbol => Reader.char
    | .processed => Reader.bool
    | .style => StyleView.read
  absent _ := none

/-- A reference within a value that was kept for later. -/
def readKept : Reader ClassRef := fun d => do
  let draft ← shape.draft d
  return {
    id := ← draft.take .id
    name := ← draft.take .name
    fullName := ← draft.take .fullName
    kind := ← draft.take .kind
    symbol := ← draft.take .symbol
    kindColor := ← draft.take .kindColor
    processed := ← draft.take .processed
    color := ← draft.take .color
    style := ← draft.take .style }

end ClassRef

end ClassAtlas
