import ClassAtlas.Json.Document
import ClassAtlas.Json.Value
import Mathlib.Data.Nat.Digits.Defs

/-! Characters and digits: no character is half of a surrogate pair, so the code units of a text decode to it
(`decode?_toNat`); a run of digits ends where anything else stands (`digits1?_append`), and only zero is written with
a zero in front (`head?_repr`). -/

namespace ClassAtlas

section Strings

theorem hexUnit?_hexDigit :
    ∀ n < 0x20, Scan.hexUnit? '0' '0' (Json.hexDigit (n / 16)) (Json.hexDigit n) = some n := by decide

theorem not_surrogate (c : Char) : Scan.isHighSurrogate c.toNat = false ∧ Scan.isLowSurrogate c.toNat = false := by
  have hvalid : c.toNat < 0xD800 ∨ 0xDFFF < c.toNat ∧ c.toNat < 0x110000 := c.valid
  simp only [Scan.isHighSurrogate, Scan.isLowSurrogate, Bool.and_eq_false_iff, decide_eq_false_iff_not]
  omega

theorem decode?_toNat (text : List Char) : Scan.decode? (text.map Char.toNat) = some text := by
  induction text with
  | nil => rfl
  | cons c text ih =>
    obtain ⟨hhigh, hlow⟩ := not_surrogate c
    cases text with
    | nil => simp [Scan.decode?, hhigh, hlow]
    | cons d text =>
      rw [List.map_cons] at ih
      simp [Scan.decode?, hhigh, hlow, ih]

end Strings

namespace Numeral

/-- The text does not go on like a number. -/
def Ends (text : List Char) : Prop := ∀ c ∈ text.head?, c.isDigit = false ∧ c ≠ '.' ∧ c ≠ 'e' ∧ c ≠ 'E'

/-- A natural number as a literal. -/
def ofNat (n : Nat) : Numeral := ⟨false, n.repr.toList, [], none⟩

variable {digits rest : List Char}

theorem digits1?_append (hne : digits ≠ []) (hdigits : ∀ c ∈ digits, c.isDigit = true)
    (hrest : ∀ c ∈ rest.head?, c.isDigit = false) : digits1? (digits ++ rest) = some (digits, rest) := by
  have htake : (digits ++ rest).takeWhile (·.isDigit) = digits := by
    rw [List.takeWhile_append_of_pos hdigits]
    cases rest with
    | nil => simp
    | cons c rest => simp [hrest c rfl]
  have hdrop : (digits ++ rest).dropWhile (·.isDigit) = rest := by
    rw [List.dropWhile_append_of_pos hdigits]
    cases rest with
    | nil => rfl
    | cons c rest => simp [hrest c rfl]
  simp [digits1?, htake, hdrop, hne]

theorem exponent?_ends (hrest : Ends rest) : exponent? rest = some (none, rest) := by
  cases rest with
  | nil => rfl
  | cons c rest =>
    obtain ⟨-, -, he, hE⟩ := hrest c rfl
    simp [exponent?, he, hE]

theorem isDigit_repr {n : Nat} : ∀ c ∈ n.repr.toList, c.isDigit = true := by
  intro c hc
  rw [Nat.toList_repr] at hc
  exact Nat.isDigit_of_mem_toDigits (by decide) (by decide) hc

theorem exists_digit (n : Nat) : ∃ c digits, n.repr.toList = c :: digits ∧ c.isDigit = true := by
  cases hrepr : n.repr.toList with
  | nil =>
    rw [Nat.toList_repr] at hrepr
    exact absurd hrepr Nat.toDigits_ne_nil
  | cons c digits => exact ⟨c, digits, rfl, isDigit_repr c (hrepr ▸ List.mem_cons_self ..)⟩

/-- Only zero is written with a zero in front. -/
theorem head?_repr {n : Nat} (hn : 0 < n) : n.repr.toList.head? ≠ some '0' := by
  rw [Nat.toList_repr]
  induction n using Nat.strong_induction_on with
  | _ n ih =>
    have hdigit : ∀ d < 10, 0 < d → Nat.digitChar d ≠ '0' := by decide
    rw [Nat.toDigits_eq_if (by decide)]
    split
    · rename_i hlt
      simpa using hdigit n hlt hn
    · rename_i hge
      have hfront := ih (n / 10) (by omega) (by omega)
      cases hdigits : Nat.toDigits 10 (n / 10) with
      | nil => exact absurd hdigits Nat.toDigits_ne_nil
      | cons c digits =>
        rw [hdigits] at hfront
        exact hfront

end Numeral

end ClassAtlas
