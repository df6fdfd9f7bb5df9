import ClassAtlas.Proofs.Literals
import Mathlib.Data.List.TakeWhile

/-! What JSON texts are put together from: blanks, quoted texts, and number literals. The grammar says which they are
and what they stand for, and the scanner takes just these (`units?_quoted`, `exists_quoted`, `scan?_literal`,
`exists_literal`). -/

namespace ClassAtlas

open Scan

/-- A run of blanks. -/
structure Blanks where
  chars : List Char
  blank : ∀ c ∈ chars, isBlank c = true

namespace Blanks

def none : Blanks := ⟨[], by simp⟩

@[simp] theorem chars_none : none.chars = [] := rfl

def append (a b : Blanks) : Blanks where
  chars := a.chars ++ b.chars
  blank c hc := (List.mem_append.1 hc).elim (a.blank c) (b.blank c)

end Blanks

namespace Scan

variable {text rest : List Char} {c : Char}

theorem isBlank_iff : isBlank c = true ↔ c = ' ' ∨ c = '\n' ∨ c = '\t' ∨ c = '\r' := by
  simp [isBlank, or_assoc]

theorem isBlank_of_isDigit (hc : c.isDigit = true) : isBlank c = false := by
  rw [← Bool.not_eq_true, isBlank_iff]
  rintro (rfl | rfl | rfl | rfl) <;> cases hc

theorem skipBlanks_append (gap : Blanks) (text : List Char) : skipBlanks (gap.chars ++ text) = skipBlanks text := by
  rw [skipBlanks, skipBlanks, List.dropWhile_append_of_pos gap.blank]

theorem skipBlanks_cons (hc : isBlank c = false) : skipBlanks (c :: text) = c :: text := by
  simp [skipBlanks, hc]

/-- What is skipped is a run of blanks, and what is left does not start with one. -/
theorem exists_blanks (text : List Char) : ∃ gap : Blanks, text = gap.chars ++ skipBlanks text :=
  ⟨⟨text.takeWhile isBlank, fun _ hc => List.mem_takeWhile_imp hc⟩, List.takeWhile_append_dropWhile.symm⟩

end Scan

/-- The characters between the quotes of a text, and the code units that they stand for. -/
inductive Quoted : List Char → List Nat → Prop
  | nil : Quoted [] []
  | plain {c : Char} {text : List Char} {units : List Nat} (quote : c ≠ '"') (backslash : c ≠ '\\')
      (printable : 0x20 ≤ c.toNat) (more : Quoted text units) : Quoted (c :: text) (c.toNat :: units)
  | escape {c char : Char} {text : List Char} {units : List Nat} (escaped : escaped? c = some char)
      (more : Quoted text units) : Quoted ('\\' :: c :: text) (char.toNat :: units)
  | unicode {a b c d : Char} {unit : Nat} {text : List Char} {units : List Nat} (hex : hexUnit? a b c d = some unit)
      (more : Quoted text units) : Quoted ('\\' :: 'u' :: a :: b :: c :: d :: text) (unit :: units)

section Strings

variable {text body rest : List Char} {units : List Nat}

theorem units?_plain {c : Char} (quote : c ≠ '"') (backslash : c ≠ '\\') (printable : 0x20 ≤ c.toNat) :
    units? (c :: text) = (units? text).map fun (units, rest) => (c.toNat :: units, rest) := by
  rw [units?.eq_def]
  split
  · rename_i h
    cases h
  · rename_i h
    exact absurd (List.cons.inj h).1 quote
  · rename_i h
    exact absurd (List.cons.inj h).1 backslash
  · rename_i h
    exact absurd (List.cons.inj h).1 backslash
  · rename_i h
    obtain ⟨rfl, rfl⟩ := List.cons.inj h
    rw [if_neg (Nat.not_lt.2 printable)]
    cases units? text <;> rfl

theorem units?_escape {c char : Char} (escaped : escaped? c = some char) :
    units? ('\\' :: c :: text) = (units? text).map fun (units, rest) => (char.toNat :: units, rest) := by
  have hu : c ≠ 'u' := by
    rintro rfl
    cases escaped
  rw [units?.eq_def]
  split
  · rename_i h
    cases h
  · rename_i h
    cases (List.cons.inj h).1
  · rename_i h
    exact absurd (List.cons.inj (List.cons.inj h).2).1 hu
  · rename_i h
    obtain ⟨rfl, rfl⟩ := List.cons.inj (List.cons.inj h).2
    rw [escaped]
    cases units? text <;> rfl
  · rename_i hrest h
    exact absurd (List.cons.inj h).2.symm (hrest _ _ (List.cons.inj h).1.symm)

theorem units?_quoted (h : Quoted body units) (rest : List Char) :
    units? (body ++ '"' :: rest) = some (units, rest) := by
  induction h with
  | nil => rfl
  | plain quote backslash printable more ih => rw [List.cons_append, units?_plain quote backslash printable, ih]; rfl
  | escape escaped more ih => rw [List.cons_append, List.cons_append, units?_escape escaped, ih]; rfl
  | unicode hex more ih =>
    simp only [List.cons_append, units?, hex, ih]
    rfl

theorem exists_quoted (h : units? text = some (units, rest)) :
    ∃ body, text = body ++ '"' :: rest ∧ Quoted body units := by
  fun_induction units? text generalizing units rest with
  | case1 => cases h
  | case2 rest =>
    cases h
    exact ⟨[], rfl, .nil⟩
  | case3 a b c d text ih =>
    obtain ⟨unit, hex, h⟩ := Option.bind_eq_some_iff.1 h
    obtain ⟨⟨units, rest⟩, htext, h⟩ := Option.bind_eq_some_iff.1 h
    cases h
    obtain ⟨body, rfl, hbody⟩ := ih htext
    exact ⟨_, rfl, .unicode hex hbody⟩
  | case4 c text _ ih =>
    obtain ⟨char, escaped, h⟩ := Option.bind_eq_some_iff.1 h
    obtain ⟨⟨units, rest⟩, htext, h⟩ := Option.bind_eq_some_iff.1 h
    cases h
    obtain ⟨body, rfl, hbody⟩ := ih htext
    exact ⟨_, rfl, .escape escaped hbody⟩
  | case5 => cases h
  | case6 c text quote _ alone printable ih =>
    obtain ⟨⟨units, rest⟩, htext, h⟩ := Option.bind_eq_some_iff.1 h
    cases h
    -- nothing comes of a backslash at the end of a text
    have backslash : c ≠ '\\' := by
      rintro rfl
      cases text with
      | nil => cases htext
      | cons b text => exact alone b text rfl rfl
    obtain ⟨body, rfl, hbody⟩ := ih htext
    exact ⟨_, rfl, .plain quote backslash (Nat.not_lt.1 printable) hbody⟩

theorem string?_quoted (h : Quoted body units) (rest : List Char) :
    string? (body ++ '"' :: rest) = some ((decode? units).map String.ofList, rest) := by
  rw [string?, units?_quoted h]
  rfl

theorem exists_string {s : Option String} (h : string? text = some (s, rest)) :
    ∃ body units, text = body ++ '"' :: rest ∧ Quoted body units ∧ s = (decode? units).map String.ofList := by
  obtain ⟨⟨units, rest⟩, htext, h⟩ := Option.map_eq_some_iff.1 h
  cases h
  obtain ⟨body, hbody, quoted⟩ := exists_quoted htext
  exact ⟨body, units, hbody, quoted, rfl⟩

theorem Quoted.append {text' : List Char} {units' : List Nat} (h : Quoted text units) (h' : Quoted text' units') :
    Quoted (text ++ text') (units ++ units') := by
  induction h with
  | nil => exact h'
  | plain quote backslash printable more ih => exact .plain quote backslash printable ih
  | escape escaped more ih => exact .escape escaped ih
  | unicode hex more ih => exact .unicode hex ih

theorem quoted_escapeChar (c : Char) : Quoted (Json.escapeChar c) [c.toNat] := by
  unfold Json.escapeChar
  -- the characters that have an escape of their own
  iterate 7
    split
    · rename_i h
      subst h
      exact .escape rfl .nil
  split
  · rename_i hcontrol
    exact .unicode (hexUnit?_hexDigit _ hcontrol) .nil
  · rename_i quote backslash _ _ _ _ _ printable
    exact .plain quote backslash (Nat.not_lt.1 printable) .nil

/-- What a writer puts between quotes stands for the characters that it was given. -/
theorem quoted_escaped (text : List Char) : Quoted (text.flatMap Json.escapeChar) (text.map Char.toNat) := by
  induction text with
  | nil => exact .nil
  | cons c text ih => exact (quoted_escapeChar c).append ih

end Strings

namespace Numeral

/-- A run of digits, not empty. -/
def Digits (cs : List Char) : Prop := cs ≠ [] ∧ ∀ c ∈ cs, c.isDigit = true

/-- The digits before the point: only zero starts with a zero. -/
inductive WholePart : List Char → Prop
  | zero : WholePart ['0']
  | digits {cs : List Char} (digits : Digits cs) (front : cs.head? ≠ some '0') : WholePart cs

/-- The digits after the point, and their text with the point. -/
inductive FractionPart : List Char → List Char → Prop
  | none : FractionPart [] []
  | some {cs : List Char} (digits : Digits cs) : FractionPart cs ('.' :: cs)

inductive ExponentPart : Option (Bool × List Char) → List Char → Prop
  | none : ExponentPart none []
  | unsigned {mark : Char} {cs : List Char} (marks : mark = 'e' ∨ mark = 'E') (digits : Digits cs) :
      ExponentPart (some (false, cs)) (mark :: cs)
  | plus {mark : Char} {cs : List Char} (marks : mark = 'e' ∨ mark = 'E') (digits : Digits cs) :
      ExponentPart (some (false, cs)) (mark :: '+' :: cs)
  | minus {mark : Char} {cs : List Char} (marks : mark = 'e' ∨ mark = 'E') (digits : Digits cs) :
      ExponentPart (some (true, cs)) (mark :: '-' :: cs)

/-- The text of a number literal in its parts. -/
inductive Literal : Numeral → List Char → Prop
  | mk {negative : Bool} {ws fs fractionText exponentText : List Char} {e : Option (Bool × List Char)}
      (whole : WholePart ws) (fraction : FractionPart fs fractionText) (exponent : ExponentPart e exponentText) :
      Literal ⟨negative, ws, fs, e⟩ ((if negative then ['-'] else []) ++ (ws ++ (fractionText ++ exponentText)))

variable {cs text rest : List Char} {e : Option (Bool × List Char)} {n : Numeral}

theorem Digits.head? (h : Digits cs) : ∃ c tail, cs = c :: tail ∧ c.isDigit = true := by
  cases cs with
  | nil => exact absurd rfl h.1
  | cons c tail => exact ⟨c, tail, rfl, h.2 c (List.mem_cons_self ..)⟩

theorem WholePart.head? (h : WholePart cs) : ∃ c tail, cs = c :: tail ∧ c.isDigit = true := by
  cases h with
  | zero => exact ⟨'0', [], rfl, rfl⟩
  | digits digits => exact digits.head?

theorem Literal.head? (h : Literal n text) :
    ∃ c tail, text = c :: tail ∧ (c = '-' ∨ c.isDigit = true) := by
  obtain ⟨whole, -, -⟩ := h
  rename_i negative ws fs fractionText exponentText e
  obtain ⟨c, tail, rfl, hdigit⟩ := whole.head?
  cases negative with
  | true => exact ⟨'-', _, rfl, Or.inl rfl⟩
  | false => exact ⟨c, _, rfl, Or.inr hdigit⟩

theorem isBlank_start {c : Char} (hc : c = '-' ∨ c.isDigit = true) : isBlank c = false := by
  rcases hc with rfl | hc
  · rfl
  · exact isBlank_of_isDigit hc

theorem ends_cons {c : Char} (hc : c ∈ [',', ']', '\x7d']) : Ends (c :: text) := by
  intro b hb
  obtain rfl : c = b := Option.some.inj hb
  simp only [List.mem_cons, List.not_mem_nil, or_false] at hc
  rcases hc with rfl | rfl | rfl <;> decide

theorem Ends.blanks (h : Ends text) (gap : Blanks) : Ends (gap.chars ++ text) := by
  obtain ⟨gap, blank⟩ := gap
  cases gap with
  | nil => exact h
  | cons c gap =>
    intro b hb
    obtain rfl : c = b := Option.some.inj hb
    rcases isBlank_iff.1 (blank c (List.mem_cons_self ..)) with rfl | rfl | rfl | rfl <;> decide

section Scanned

theorem whole?_append (h : WholePart cs) (hrest : ∀ c ∈ rest.head?, c.isDigit = false) :
    whole? (cs ++ rest) = some (cs, rest) := by
  cases h with
  | zero => rfl
  | digits digits front =>
    have hscan := digits1?_append digits.1 digits.2 hrest
    obtain ⟨c, tail, rfl, -⟩ := digits.head?
    unfold whole?
    split
    · rename_i hhead
      exact absurd (congrArg some (List.cons.inj hhead).1) front
    · exact hscan

theorem fraction?_append (h : FractionPart cs text) (hrest : ∀ c ∈ rest.head?, c.isDigit = false ∧ c ≠ '.') :
    fraction? (text ++ rest) = some (cs, rest) := by
  cases h with
  | none =>
    cases rest with
    | nil => rfl
    | cons c rest =>
      unfold fraction?
      split
      · rename_i hpoint
        exact absurd (List.cons.inj hpoint).1 (hrest c rfl).2
      · rfl
  | some digits => exact digits1?_append digits.1 digits.2 fun c hc => (hrest c hc).1

theorem exponentDigits?_append {negative : Bool} (digits : Digits cs) (hrest : ∀ c ∈ rest.head?, c.isDigit = false) :
    exponentDigits? negative (cs ++ rest) = some (some (negative, cs), rest) := by
  rw [exponentDigits?, digits1?_append digits.1 digits.2 hrest]
  rfl

theorem exponent?_append (h : ExponentPart e text) (hrest : Ends rest) : exponent? (text ++ rest) = some (e, rest) := by
  have hdigit : ∀ c ∈ rest.head?, c.isDigit = false := fun c hc => (hrest c hc).1
  cases h with
  | none => exact exponent?_ends hrest
  | unsigned marks digits =>
    have hscan : exponentDigits? false _ = _ := exponentDigits?_append digits hdigit
    obtain ⟨c, tail, rfl, hc⟩ := digits.head?
    simp only [List.cons_append, exponent?, marks, Bool.or_eq_true, decide_eq_true_eq, if_true]
    split
    · rename_i hsign
      rw [(List.cons.inj hsign).1] at hc
      cases hc
    · rename_i hsign
      rw [(List.cons.inj hsign).1] at hc
      cases hc
    · exact hscan
  | plus marks digits =>
    simp only [List.cons_append, exponent?, marks, Bool.or_eq_true, decide_eq_true_eq, if_true]
    exact exponentDigits?_append digits hdigit
  | minus marks digits =>
    simp only [List.cons_append, exponent?, marks, Bool.or_eq_true, decide_eq_true_eq, if_true]
    exact exponentDigits?_append digits hdigit

/-- An exponent starts with its mark. -/
theorem ExponentPart.head? (h : ExponentPart e text) (hrest : Ends rest) :
    ∀ c ∈ (text ++ rest).head?, c.isDigit = false ∧ c ≠ '.' := by
  intro c hc
  cases h with
  | none => exact ⟨(hrest c hc).1, (hrest c hc).2.1⟩
  | unsigned marks | plus marks | minus marks =>
    obtain rfl := Option.some.inj hc
    rcases marks with rfl | rfl <;> decide

theorem FractionPart.head? (h : FractionPart cs text) (hrest : ∀ c ∈ rest.head?, c.isDigit = false) :
    ∀ c ∈ (text ++ rest).head?, c.isDigit = false := by
  intro c hc
  cases h with
  | none => exact hrest c hc
  | some digits =>
    obtain rfl := Option.some.inj hc
    rfl

/-- A literal after its sign. -/
def unsigned? (negative : Bool) (text : List Char) : Option (Numeral × List Char) := do
  let (whole, text) ← whole? text
  let (fraction, text) ← fraction? text
  let (exponent, text) ← exponent? text
  return (⟨negative, whole, fraction, exponent⟩, text)

theorem scan?_minus (text : List Char) : scan? ('-' :: text) = unsigned? true text := rfl

theorem scan?_of_head? (h : text.head? ≠ some '-') : scan? text = unsigned? false text := by
  unfold scan?
  split
  rename_i negative rest hsign
  split at hsign
  · exact absurd rfl h
  · cases hsign
    rfl

theorem scan?_literal (h : Literal n text) (hrest : Ends rest) : scan? (text ++ rest) = some (n, rest) := by
  obtain ⟨whole, fraction, exponent⟩ := h
  rename_i negative ws fs fractionText exponentText e
  have hunsigned : unsigned? negative (ws ++ (fractionText ++ (exponentText ++ rest))) =
      some (⟨negative, ws, fs, e⟩, rest) := by
    have hexponent := exponent?_append exponent hrest
    have hfraction := fraction?_append fraction (exponent.head? hrest)
    have hwhole := whole?_append whole (fraction.head? fun c hc => (exponent.head? hrest c hc).1)
    simp only [unsigned?, hwhole, hfraction, hexponent, Option.bind_eq_bind, Option.bind_some]
    rfl
  have hassoc : (ws ++ (fractionText ++ exponentText)) ++ rest = ws ++ (fractionText ++ (exponentText ++ rest)) := by
    rw [List.append_assoc, List.append_assoc]
  cases negative with
  | true =>
    rw [← hunsigned, ← hassoc]
    exact scan?_minus _
  | false =>
    rw [← hunsigned, ← hassoc]
    refine scan?_of_head? ?_
    obtain ⟨c, tail, rfl, hdigit⟩ := whole.head?
    intro hc
    obtain rfl := Option.some.inj hc
    cases hdigit

end Scanned

/-- Natural numbers are written as literals. -/
theorem literal_ofNat (k : Nat) : Literal (ofNat k) k.repr.toList := by
  have hne : k.repr.toList ≠ [] := by
    obtain ⟨c, digits, hrepr, -⟩ := exists_digit k
    rw [hrepr]
    exact List.cons_ne_nil c digits
  have hwhole : WholePart k.repr.toList := by
    rcases Nat.eq_zero_or_pos k with rfl | hk
    · exact .zero
    · exact .digits ⟨hne, isDigit_repr⟩ (head?_repr hk)
  have hliteral : Literal ⟨false, _, _, _⟩ _ := .mk hwhole .none .none
  simpa [ofNat] using hliteral

section Exists

theorem exists_digits (h : digits1? text = some (cs, rest)) : text = cs ++ rest ∧ Digits cs := by
  unfold digits1? at h
  dsimp only at h
  split at h
  · cases h
  · rename_i hne
    cases h
    exact ⟨List.takeWhile_append_dropWhile.symm, fun e => hne (List.isEmpty_iff.2 e),
      fun _ hc => List.mem_takeWhile_imp hc⟩

theorem exists_whole (h : whole? text = some (cs, rest)) : text = cs ++ rest ∧ WholePart cs := by
  unfold whole? at h
  split at h
  · cases h
    exact ⟨rfl, .zero⟩
  · rename_i hzero
    obtain ⟨rfl, digits⟩ := exists_digits h
    refine ⟨rfl, .digits digits fun hfront => ?_⟩
    obtain ⟨c, tail, rfl, -⟩ := digits.head?
    obtain rfl := Option.some.inj hfront
    exact hzero _ rfl

theorem exists_fraction (h : fraction? text = some (cs, rest)) : ∃ t, text = t ++ rest ∧ FractionPart cs t := by
  unfold fraction? at h
  split at h
  · obtain ⟨rfl, digits⟩ := exists_digits h
    exact ⟨_, rfl, .some digits⟩
  · cases h
    exact ⟨[], rfl, .none⟩

theorem exists_exponentDigits {negative : Bool} (h : exponentDigits? negative text = some (e, rest)) :
    ∃ cs, text = cs ++ rest ∧ Digits cs ∧ e = some (negative, cs) := by
  obtain ⟨⟨cs, rest⟩, hdigits, h⟩ := Option.map_eq_some_iff.1 h
  cases h
  obtain ⟨rfl, digits⟩ := exists_digits hdigits
  exact ⟨cs, rfl, digits, rfl⟩

theorem exists_exponent (h : exponent? text = some (e, rest)) : ∃ t, text = t ++ rest ∧ ExponentPart e t := by
  unfold exponent? at h
  split at h
  · rename_i mark text
    split at h
    · rename_i marks
      simp only [Bool.or_eq_true, decide_eq_true_eq] at marks
      split at h
      · obtain ⟨cs, rfl, digits, rfl⟩ := exists_exponentDigits h
        exact ⟨_, rfl, .minus marks digits⟩
      · obtain ⟨cs, rfl, digits, rfl⟩ := exists_exponentDigits h
        exact ⟨_, rfl, .plus marks digits⟩
      · obtain ⟨cs, rfl, digits, rfl⟩ := exists_exponentDigits h
        exact ⟨_, rfl, .unsigned marks digits⟩
    · cases h
      exact ⟨[], rfl, .none⟩
  · cases h
    exact ⟨[], rfl, .none⟩

theorem exists_literal (h : scan? text = some (n, rest)) : ∃ t, text = t ++ rest ∧ Literal n t := by
  have hunsigned : ∀ {negative : Bool} {text : List Char}, unsigned? negative text = some (n, rest) →
      ∃ t, (if negative then ['-'] else []) ++ text = t ++ rest ∧ Literal n t := by
    intro negative text h
    obtain ⟨⟨ws, afterWhole⟩, hwhole, h⟩ := Option.bind_eq_some_iff.1 h
    obtain ⟨⟨fs, afterFraction⟩, hfraction, h⟩ := Option.bind_eq_some_iff.1 h
    obtain ⟨⟨e, afterExponent⟩, hexponent, h⟩ := Option.bind_eq_some_iff.1 h
    cases h
    obtain ⟨rfl, whole⟩ := exists_whole hwhole
    obtain ⟨fractionText, rfl, fraction⟩ := exists_fraction hfraction
    obtain ⟨exponentText, rfl, exponent⟩ := exists_exponent hexponent
    exact ⟨_, by simp only [List.append_assoc], .mk whole fraction exponent⟩
  by_cases hsign : text.head? = some '-'
  · cases text with
    | nil => cases hsign
    | cons c text =>
      obtain rfl := Option.some.inj hsign
      exact hunsigned h
  · rw [scan?_of_head? hsign] at h
    exact hunsigned h

end Exists

end Numeral

end ClassAtlas
