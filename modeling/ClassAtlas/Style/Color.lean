/-!
Colours of labels, written as a number sign and six upper-case hexadecimal digits.
-/

namespace ClassAtlas

/-- A 24-bit colour; bits above the lower 24 are kept but do not show. -/
structure Rgb where
  code : Nat
deriving DecidableEq

namespace Rgb

def black : Rgb := ⟨0⟩

/-- The `count` lowest hexadecimal digits of `n`, highest first. -/
def hexDigits (n : Nat) : Nat → List Char
  | 0 => []
  | count + 1 => hexDigits (n / 16) count ++ [(Nat.digitChar (n % 16)).toUpper]

def rrggbb (c : Rgb) : String := String.ofList (hexDigits c.code 6)

def text (c : Rgb) : String := "#" ++ c.rrggbb

end Rgb

/-- Fixed colours of UML tables and class labels. -/
inductive Palette
  | umlClassName
  | umlSectionTitle
  | umlType
  | umlParameters
  | umlStereotype
  | processedClass
  | unprocessedClass
deriving DecidableEq

namespace Palette

def color : Palette → Rgb
  | umlClassName => ⟨0xFF0000⟩
  | umlSectionTitle => ⟨0x008000⟩
  | umlType => ⟨0x000080⟩
  | umlParameters => ⟨0x008080⟩
  | umlStereotype => ⟨0x808000⟩
  | processedClass => .black
  | unprocessedClass => ⟨0x585858⟩

/-- Label colour of a class: grey until its relations are processed. -/
def forClass (processed : Bool) : Palette := if processed then processedClass else unprocessedClass

end Palette

end ClassAtlas
