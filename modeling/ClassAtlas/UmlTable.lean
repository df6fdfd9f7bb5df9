import ClassAtlas.Model.Basic
import ClassAtlas.Style.Text

/-!
The UML table of a class: its parents, a header, and a section of member lines for each kind that has
members.
-/

namespace ClassAtlas

/-- One member line. -/
structure UmlRow where
  /-- Stereotypes and annotations, which stand on a line of their own. -/
  stereotypes : List StyledText
  visibility : Option Char
  name : String
  parameters : Option StyledText
  declaredType : Option StyledText
  suffix : Option String
  style : TextStyle

namespace UmlRow

def stereotypesOf (a : Attributes) : List StyledText := a.stereotypes.map .stereotype

def annotationsOf (annotations : List AnnotationRef) : List StyledText :=
  annotations.map fun a => .stereotype a.name

def ofMember (member : Element) : UmlRow where
  stereotypes := stereotypesOf member.attributes ++ annotationsOf member.annotations
  visibility := member.attributes.visibility.symbol
  name := member.name
  parameters := member.parameterText.map (⟨·, .colored Palette.umlParameters.color⟩)
  declaredType := member.shortType.map (⟨·, .colored Palette.umlType.color⟩)
  suffix := member.suffix
  style := .forElement member.attributes

/-- The line as plain text: `+ name( parameters ) : Type suffix`. -/
def text (r : UmlRow) : String :=
  let visibility := match r.visibility with
    | some symbol => String.singleton symbol ++ " "
    | none => ""
  let parameters := match r.parameters with
    | some styled => "( " ++ styled.text ++ " )"
    | none => ""
  let declaredType := match r.declaredType with
    | some styled => " : " ++ styled.text
    | none => ""
  visibility ++ r.name ++ parameters ++ declaredType ++ r.suffix.getD ""

end UmlRow

structure UmlSection where
  kind : ElementKind
  title : StyledText
  rows : List UmlRow

structure UmlTable where
  classId : String
  /-- The super class, or the super interfaces where there is none. -/
  parents : List StyledText
  /-- Annotations of the class, then the stereotypes of its modifiers. -/
  stereotypes : List StyledText
  namespaceText : Option String
  name : StyledText
  sections : List UmlSection

namespace ClassModel

def umlParents (m : ClassModel) (n : ClassNode) : List StyledText :=
  let parents := n.targets .outbound .superClass
  let parents := if parents.isEmpty then n.targets .outbound .superInterface else parents
  parents.map fun h =>
    let parent := m.classAt h
    ⟨parent.shortName, .forElement parent.attributes⟩

def umlSection (n : ClassNode) (kind : ElementKind) : Option UmlSection :=
  if (n.membersOf kind).isEmpty then none
  else some {
    kind := kind
    title := ⟨kind.name, .colored Palette.umlSectionTitle.color⟩
    rows := (n.membersOf kind).map UmlRow.ofMember }

def umlTable (m : ClassModel) (h : Handle) : UmlTable :=
  let n := m.classAt h
  { classId := n.id
    parents := m.umlParents n
    stereotypes := UmlRow.annotationsOf n.annotations ++ UmlRow.stereotypesOf n.attributes
    namespaceText := n.umlNamespace
    name := ⟨n.shortName,
      { TextStyle.forElement n.attributes with color := Palette.umlClassName.color }⟩
    sections := ElementKind.umlKinds.filterMap (umlSection n) }

end ClassModel

end ClassAtlas
