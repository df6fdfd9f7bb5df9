import ClassAtlas.Element.Basic

/-!
Styled text. Projections attach a style to their texts and leave markup to whoever renders them: bold
marks abstract elements and underlining static ones.
-/

namespace ClassAtlas

structure TextStyle where
  bold : Bool := false
  underline : Bool := false
  color : Option Rgb := none
deriving DecidableEq

namespace TextStyle

def plain : TextStyle := {}

def colored (c : Rgb) : TextStyle := { color := some c }

def forElement (a : Attributes) : TextStyle := { bold := a.isAbstract, underline := a.isStatic }

end TextStyle

structure StyledText where
  text : String
  style : TextStyle
deriving DecidableEq

namespace StyledText

/-- A name between guillemets. -/
def stereotype (name : String) : StyledText :=
  ⟨"«" ++ name ++ "»", .colored Palette.umlStereotype.color⟩

end StyledText

end ClassAtlas
