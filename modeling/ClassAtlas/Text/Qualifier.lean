import ClassAtlas.Text.WordChar

/-!
Qualifiers of type names. A qualifier is a whole run of word characters with the dot or dollar sign
after it; stripping removes every qualifier except one that a digit follows, so that `Outer$1` keeps
the name of its class.
-/

namespace ClassAtlas

def isSeparator (c : Char) : Bool := c = '.' || c = '$'

def startsWithDigit : List Char → Bool
  | [] => false
  | c :: _ => c.isDigit

namespace Qualifier

/-- Reads on with `word`, the run of word characters that ends here. -/
def stripFrom (word : List Char) : List Char → List Char
  | [] => word
  | c :: rest =>
    if isWordChar c then stripFrom (word ++ [c]) rest
    else if isSeparator c && !word.isEmpty && !startsWithDigit rest then stripFrom [] rest
    else word ++ c :: stripFrom [] rest

def strip (text : List Char) : List Char := stripFrom [] text

end Qualifier

/-- Every type name in `text` without its qualifiers: `a.Map$Entry<b.K, V>` becomes `Entry<K, V>`. -/
def stripQualifiers (text : String) : String := String.ofList (Qualifier.strip text.toList)

end ClassAtlas
