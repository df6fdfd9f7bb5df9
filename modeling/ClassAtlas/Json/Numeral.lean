/-!
Number literals. Counts are natural numbers written with digits alone; every other literal only has to
be finite as it is read, which is as a significand times a power of ten, both rounded to doubles first.
-/

namespace ClassAtlas

/-- A JSON number literal in its parts; an exponent has a sign, true for minus, and digits. -/
structure Numeral where
  negative : Bool
  whole : List Char
  fraction : List Char
  exponent : Option (Bool × List Char)

namespace Numeral

/-- A number with one more digit. -/
def withDigit (n : Nat) (c : Char) : Nat := 10 * n + (c.toNat - '0'.toNat)

def digitsValue (digits : List Char) : Nat := digits.foldl withDigit 0

/-- The number, if it is written as a natural number. -/
def natural? (n : Numeral) : Option Nat :=
  if n.negative || !n.fraction.isEmpty || n.exponent.isSome then none
  else some (digitsValue n.whole)

/-- A significand is kept in 64 bits. -/
def significandBound : Nat := Nat.pow 2 64

/-- Adds digits to a significand up to the first that does not fit, and gives the digits from there on. -/
def takeDigits (significand : Nat) : List Char → Nat × List Char
  | [] => (significand, [])
  | c :: digits =>
    if withDigit significand c < significandBound then takeDigits (withDigit significand c) digits
    else (significand, c :: digits)

theorem takeDigits_lt {significand : Nat} (h : significand < significandBound) (digits : List Char) :
    (takeDigits significand digits).1 < significandBound := by
  induction digits generalizing significand with
  | nil => exact h
  | cons c digits ih =>
    unfold takeDigits
    split
    · rename_i hfits
      exact ih hfits
    · exact h

theorem length_takeDigits_le (significand : Nat) (digits : List Char) :
    (takeDigits significand digits).2.length ≤ digits.length := by
  induction digits generalizing significand with
  | nil => exact Nat.le_refl _
  | cons c digits ih =>
    unfold takeDigits
    split
    · exact Nat.le_succ_of_le (ih _)
    · exact Nat.le_refl _

def power (n : Numeral) : Int :=
  match n.exponent with
  | none => 0
  | some (true, digits) => -(digitsValue digits : Int)
  | some (false, digits) => digitsValue digits

/-- The literal as a significand and a power of ten. Digits that do not fit count as zeros before the point and are
ignored behind it, where digits are tried anew. -/
def scaled (n : Numeral) : Nat × Int :=
  let (whole, zeros) := takeDigits 0 n.whole
  let (significand, ignored) := takeDigits whole n.fraction
  (significand, zeros.length - (n.fraction.length - ignored.length : Nat) + n.power)

/-- The double that is nearest to a natural number, if it is finite: 53 binary digits, and a half goes to the even
neighbour. -/
def nearestDouble (n : Nat) : Nat :=
  let unit := Nat.pow 2 (n.log2 - 52)
  let units := n / unit
  let rest := n % unit
  if 2 * rest < unit then units * unit
  else if unit < 2 * rest then (units + 1) * unit
  else (units + units % 2) * unit

theorem nearestDouble_le (n : Nat) : nearestDouble n ≤ 2 * n := by
  rcases Nat.eq_zero_or_pos n with rfl | hpos
  · decide
  · have hunit : Nat.pow 2 (n.log2 - 52) ≤ n :=
      Nat.le_trans (Nat.pow_le_pow_right (by decide) (Nat.sub_le ..)) (Nat.log2_self_le (Nat.ne_of_gt hpos))
    unfold nearestDouble
    generalize Nat.pow 2 (n.log2 - 52) = unit at hunit
    have hbelow : n / unit * unit ≤ n := Nat.div_mul_le_self n unit
    have habove : (n / unit + 1) * unit ≤ 2 * n := by
      rw [Nat.succ_mul]
      omega
    have hodd : (n / unit + n / unit % 2) * unit ≤ (n / unit + 1) * unit :=
      Nat.mul_le_mul_right unit (by omega)
    dsimp only
    split
    · omega
    · split
      · exact habove
      · exact Nat.le_trans hodd habove

/-- The least number that rounds to infinity: half a unit above the largest double. -/
def overflowBound : Nat := Nat.pow 2 1024 - Nat.pow 2 970

/-- Powers of ten up to this one are doubles. -/
def greatestPower : Int := 308

/-- Whether the number is finite as a product of doubles. No number overflows that is divided by a power of ten. -/
def inRange (n : Numeral) : Bool :=
  let (significand, exponent) := n.scaled
  significand = 0 || exponent < 0 ||
    (exponent ≤ greatestPower &&
      nearestDouble significand * nearestDouble (Nat.pow 10 exponent.toNat) < overflowBound)

/-- A natural number of few digits is far from the largest double. -/
theorem inRange_of_length {n : Numeral} (hfraction : n.fraction = []) (hexponent : n.exponent = none)
    (hlength : n.whole.length ≤ 20) : n.inRange = true := by
  have hscaled : n.scaled = ((takeDigits 0 n.whole).1, ((takeDigits 0 n.whole).2.length : Int)) := by
    simp [scaled, power, takeDigits, hfraction, hexponent]
  have hsignificand := takeDigits_lt (show 0 < significandBound by decide) n.whole
  have hzeros := Nat.le_trans (length_takeDigits_le 0 n.whole) hlength
  rw [inRange, hscaled]
  generalize (takeDigits 0 n.whole).1 = significand at hsignificand ⊢
  generalize (takeDigits 0 n.whole).2.length = zeros at hzeros ⊢
  have hproduct : nearestDouble significand * nearestDouble (Nat.pow 10 zeros) < overflowBound :=
    calc nearestDouble significand * nearestDouble (Nat.pow 10 zeros)
        ≤ 2 * significand * (2 * Nat.pow 10 zeros) := Nat.mul_le_mul (nearestDouble_le _) (nearestDouble_le _)
      _ ≤ 2 * significandBound * (2 * Nat.pow 10 20) := by
        refine Nat.mul_le_mul (Nat.mul_le_mul_left 2 (Nat.le_of_lt hsignificand)) (Nat.mul_le_mul_left 2 ?_)
        exact Nat.pow_le_pow_right (by decide) hzeros
      _ < overflowBound := by decide +kernel
  have hpower : (zeros : Int) ≤ greatestPower := Int.le_trans (Int.ofNat_le.2 hzeros) (by decide)
  simp only [Int.toNat_natCast, decide_eq_true hpower, decide_eq_true hproduct, Bool.and_self, Bool.or_true]

/-- A nonempty run of digits and what follows it. -/
def digits1? (text : List Char) : Option (List Char × List Char) :=
  let run := text.takeWhile (·.isDigit)
  if run.isEmpty then none else some (run, text.dropWhile (·.isDigit))

/-- The digits before the point: a zero, or a run that starts with another digit. -/
def whole? : List Char → Option (List Char × List Char)
  | '0' :: rest => some (['0'], rest)
  | text => digits1? text

def fraction? : List Char → Option (List Char × List Char)
  | '.' :: rest => digits1? rest
  | text => some ([], text)

def exponentDigits? (negative : Bool) (text : List Char) :
    Option (Option (Bool × List Char) × List Char) :=
  (digits1? text).map fun (digits, rest) => (some (negative, digits), rest)

def exponent? : List Char → Option (Option (Bool × List Char) × List Char)
  | c :: rest =>
    if c = 'e' || c = 'E' then
      match rest with
      | '-' :: rest => exponentDigits? true rest
      | '+' :: rest => exponentDigits? false rest
      | rest => exponentDigits? false rest
    else some (none, c :: rest)
  | [] => some (none, [])

/-- Reads a literal at the start of a text and gives what follows it. -/
def scan? (text : List Char) : Option (Numeral × List Char) := do
  let (negative, text) := match text with
    | '-' :: rest => (true, rest)
    | text => (false, text)
  let (whole, text) ← whole? text
  let (fraction, text) ← fraction? text
  let (exponent, text) ← exponent? text
  return (⟨negative, whole, fraction, exponent⟩, text)

end Numeral

end ClassAtlas
