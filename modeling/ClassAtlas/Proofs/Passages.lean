import ClassAtlas.Proofs.Tokens

/-! JSON texts with all that they leave to a writer: where blanks stand, which escapes and which digits are used, and in
what order members come. A passage is a value in such a text. -/

namespace ClassAtlas

open Scan

/-- The texts of values that are neither arrays nor objects. -/
inductive Scalar : Document → List Char → Prop
  | null : Scalar .null ['n', 'u', 'l', 'l']
  | true : Scalar (.bool true) ['t', 'r', 'u', 'e']
  | false : Scalar (.bool false) ['f', 'a', 'l', 's', 'e']
  | number {n : Numeral} {text : List Char} (literal : n.Literal text) : Scalar (.number n) text
  | string {text : List Char} {units : List Nat} (quoted : Quoted text units) :
      Scalar (.string ((decode? units).map String.ofList)) ('"' :: (text ++ ['"']))

structure Token where
  document : Document
  chars : List Char
  scalar : Scalar document chars

/-- The key of a member between blanks. -/
structure Key where
  before : Blanks
  text : List Char
  units : List Nat
  quoted : Quoted text units
  after : Blanks

namespace Key

/-- The text that the key stands for; none where an escape names half of a surrogate pair. -/
def name (k : Key) : Option String := (decode? k.units).map String.ofList

def chars (k : Key) : List Char := k.before.chars ++ '"' :: (k.text ++ '"' :: k.after.chars)

end Key

/-- A value between blanks, as it is written. -/
inductive Passage
  | scalar (before : Blanks) (token : Token) (after : Blanks)
  | array (before : Blanks) (items : List Passage) (closing after : Blanks)
  | object (before : Blanks) (members : List (Key × Passage)) (closing after : Blanks)

namespace Passage

/-- The blanks behind the value. -/
def after : Passage → Blanks
  | .scalar _ _ after | .array _ _ _ after | .object _ _ _ after => after

mutual

def chars : Passage → List Char
  | .scalar before token after => before.chars ++ (token.chars ++ after.chars)
  | .array before items closing after =>
    before.chars ++ '[' :: ([','].intercalate (itemChars items) ++ (closing.chars ++ ']' :: after.chars))
  | .object before members closing after =>
    before.chars ++ '\x7b' :: ([','].intercalate (memberChars members) ++ (closing.chars ++ '\x7d' :: after.chars))

def itemChars : List Passage → List (List Char)
  | [] => []
  | p :: ps => chars p :: itemChars ps

def memberChars : List (Key × Passage) → List (List Char)
  | [] => []
  | (key, p) :: ms => (key.chars ++ ':' :: chars p) :: memberChars ms

end

def text (p : Passage) : String := String.ofList p.chars

mutual

/-- The value as a document. -/
def document : Passage → Document
  | .scalar _ token _ => token.document
  | .array _ items _ _ => .array (documents items) true
  | .object _ members _ _ => .object (memberDocuments members) true

def documents : List Passage → List Document
  | [] => []
  | p :: ps => document p :: documents ps

def memberDocuments : List (Key × Passage) → List (Option String × Document)
  | [] => []
  | (key, p) :: ms => (key.name, document p) :: memberDocuments ms

end

mutual

/-- How deep the arrays and objects of a value nest. -/
def depth : Passage → Nat
  | .scalar .. => 0
  | .array _ items _ _ => depthItems items + 1
  | .object _ members _ _ => depthMembers members + 1

def depthItems : List Passage → Nat
  | [] => 0
  | p :: ps => max (depth p) (depthItems ps)

def depthMembers : List (Key × Passage) → Nat
  | [] => 0
  | (_, p) :: ms => max (depth p) (depthMembers ms)

end

theorem documents_eq_map (ps : List Passage) : documents ps = ps.map document := by
  induction ps with
  | nil => rfl
  | cons p ps ih => rw [documents, ih, List.map_cons]

theorem memberChars_cons (m : Key × Passage) (ms : List (Key × Passage)) :
    memberChars (m :: ms) = (m.1.chars ++ ':' :: m.2.chars) :: memberChars ms := rfl

theorem memberDocuments_eq_map (ms : List (Key × Passage)) :
    memberDocuments ms = ms.map fun m => (m.1.name, m.2.document) := by
  induction ms with
  | nil => rfl
  | cons m ms ih => rw [memberDocuments, ih, List.map_cons]

theorem document_object (before : Blanks) (ms ns : List (Key × Passage)) (closing after : Blanks) :
    (object before (ms ++ ns) closing after).document =
      .object (memberDocuments ms ++ memberDocuments ns) true := by
  simp only [document, memberDocuments_eq_map, List.map_append]

theorem document_array (before : Blanks) (items more : List Passage) (value : Passage) (closing after : Blanks) :
    (array before (items ++ value :: more) closing after).document =
      .array (documents items ++ value.document :: documents more) true := by
  simp only [document, documents_eq_map, List.map_append, List.map_cons]

mutual

/-- A passage has no syntax errors. -/
theorem wellFormed_document : ∀ p : Passage, p.document.wellFormed = true
  | .scalar _ token _ => by
    obtain ⟨d, text, scalar⟩ := token
    cases scalar <;> rfl
  | .array _ items _ _ => by
    rw [document, Document.wellFormed, wellFormed_documents items]
    rfl
  | .object _ ms _ _ => by
    rw [document, Document.wellFormed, wellFormed_memberDocuments ms]
    rfl

theorem wellFormed_documents : ∀ ps : List Passage, Document.wellFormedItems (documents ps) = true
  | [] => rfl
  | p :: ps => by
    rw [documents, Document.wellFormedItems, wellFormed_document p, wellFormed_documents ps]
    rfl

theorem wellFormed_memberDocuments : ∀ ms : List (Key × Passage),
    Document.wellFormedMembers (memberDocuments ms) = true
  | [] => rfl
  | (_, p) :: ms => by
    rw [memberDocuments, Document.wellFormedMembers, wellFormed_document p, wellFormed_memberDocuments ms]
    rfl

end

section Texts

variable {rest : List Char}

/-- The items of an array up to its closing bracket. -/
def itemsText (ps : List Passage) (closing : Blanks) (rest : List Char) : List Char :=
  [','].intercalate (itemChars ps) ++ (closing.chars ++ ']' :: rest)

/-- The members of an object up to its closing brace. -/
def membersText (ms : List (Key × Passage)) (closing : Blanks) (rest : List Char) : List Char :=
  [','].intercalate (memberChars ms) ++ (closing.chars ++ '\x7d' :: rest)

variable {before closing after : Blanks} {ms : List (Key × Passage)}

theorem chars_scalar {t : Token} : (scalar before t after).chars ++ rest =
    before.chars ++ (t.chars ++ (after.chars ++ rest)) := by
  simp only [chars, List.append_assoc]

theorem chars_array (items : List Passage) : (array before items closing after).chars ++ rest =
    before.chars ++ '[' :: itemsText items closing (after.chars ++ rest) := by
  simp only [chars, itemsText, List.append_assoc, List.cons_append]

theorem chars_object : (object before ms closing after).chars ++ rest =
    before.chars ++ '\x7b' :: membersText ms closing (after.chars ++ rest) := by
  simp only [chars, membersText, List.append_assoc, List.cons_append]

theorem itemsText_singleton (p : Passage) :
    itemsText [p] closing rest = p.chars ++ (closing.chars ++ ']' :: rest) := by
  rw [itemsText, itemChars, itemChars, List.intercalate_singleton]

theorem itemsText_cons_cons (p q : Passage) (ps : List Passage) :
    itemsText (p :: q :: ps) closing rest = p.chars ++ ',' :: itemsText (q :: ps) closing rest := by
  rw [itemsText, itemChars, itemChars, List.intercalate_cons_cons, List.append_assoc, List.append_assoc]
  rfl

theorem membersText_singleton (key : Key) (p : Passage) : membersText [(key, p)] closing rest =
    key.chars ++ ':' :: (p.chars ++ (closing.chars ++ '\x7d' :: rest)) := by
  rw [membersText, memberChars, memberChars, List.intercalate_singleton, List.append_assoc]
  rfl

theorem membersText_cons_cons (key : Key) (p : Passage) (m : Key × Passage) :
    membersText ((key, p) :: m :: ms) closing rest =
      key.chars ++ ':' :: (p.chars ++ ',' :: membersText (m :: ms) closing rest) := by
  rw [membersText, memberChars, memberChars, List.intercalate_cons_cons, List.append_assoc, List.append_assoc,
    List.append_assoc]
  simp [membersText, memberChars]

theorem itemsText_cons (p : Passage) (ps : List Passage) (closing : Blanks) (rest : List Char) :
    ∃ text, itemsText (p :: ps) closing rest = p.chars ++ text := by
  cases ps with
  | nil => exact ⟨_, itemsText_singleton p⟩
  | cons q ps => exact ⟨_, itemsText_cons_cons p q ps⟩

theorem membersText_cons (m : Key × Passage) (ms : List (Key × Passage)) (closing : Blanks) (rest : List Char) :
    ∃ text, membersText (m :: ms) closing rest = m.1.chars ++ text := by
  cases ms with
  | nil => exact ⟨_, membersText_singleton m.1 m.2⟩
  | cons m' ms => exact ⟨_, membersText_cons_cons m.1 m.2 m'⟩

end Texts

/-- The passage with more blanks behind it. -/
def pad (gap : Blanks) : Passage → Passage
  | .scalar before token after => .scalar before token (after.append gap)
  | .array before items closing after => .array before items closing (after.append gap)
  | .object before members closing after => .object before members closing (after.append gap)

theorem chars_pad (gap : Blanks) (p : Passage) : (p.pad gap).chars = p.chars ++ gap.chars := by
  cases p <;> simp [pad, chars, Blanks.append]

end Passage

theorem Token.head? (t : Token) : ∃ c tail, t.chars = c :: tail ∧ isBlank c = false ∧ c ≠ ']' := by
  obtain ⟨d, text, scalar⟩ := t
  cases scalar with
  | null | true | false | string => exact ⟨_, _, rfl, by decide, by decide⟩
  | number literal =>
    obtain ⟨c, tail, rfl, hc⟩ := literal.head?
    refine ⟨c, tail, rfl, Numeral.isBlank_start hc, ?_⟩
    rintro rfl
    exact absurd hc (by decide)

/-- What is no blank and comes first does not end an array. -/
theorem Passage.head? (p : Passage) (rest : List Char) :
    ∃ c tail, skipBlanks (p.chars ++ rest) = c :: tail ∧ c ≠ ']' := by
  cases p with
  | scalar before token after =>
    obtain ⟨c, tail, htoken, hblank, hc⟩ := token.head?
    refine ⟨c, tail ++ (after.chars ++ rest), ?_, hc⟩
    rw [chars, List.append_assoc, skipBlanks_append, List.append_assoc, htoken]
    exact skipBlanks_cons hblank
  | array before items closing after =>
    refine ⟨'[', [','].intercalate (itemChars items) ++ (closing.chars ++ ']' :: after.chars) ++ rest, ?_, by decide⟩
    rw [chars, List.append_assoc, skipBlanks_append]
    exact skipBlanks_cons rfl
  | object before members closing after =>
    refine ⟨'\x7b', [','].intercalate (memberChars members) ++ (closing.chars ++ '\x7d' :: after.chars) ++ rest, ?_,
      by decide⟩
    rw [chars, List.append_assoc, skipBlanks_append]
    exact skipBlanks_cons rfl

/-- An item stands between the brackets of an array. -/
theorem Passage.itemsText_open {p : Passage} {ps : List Passage} {closing : Blanks} {rest : List Char}
    (more : List Char) : skipBlanks (itemsText (p :: ps) closing rest) ≠ ']' :: more := by
  obtain ⟨text, htext⟩ := itemsText_cons p ps closing rest
  obtain ⟨c, tail, hhead, hc⟩ := p.head? text
  rw [htext, hhead]
  exact fun e => hc (List.cons.inj e).1

/-- A member stands between the braces of an object. -/
theorem Passage.membersText_open {m : Key × Passage} {ms : List (Key × Passage)} {closing : Blanks} {rest : List Char}
    (more : List Char) : skipBlanks (membersText (m :: ms) closing rest) ≠ '\x7d' :: more := by
  obtain ⟨text, htext⟩ := membersText_cons m ms closing rest
  rw [htext, Key.chars, List.append_assoc, skipBlanks_append, List.cons_append, skipBlanks_cons rfl]
  exact fun e => absurd (List.cons.inj e).1 (by decide)

theorem Passage.length_pos (p : Passage) : 0 < p.chars.length := by
  obtain ⟨c, tail, hhead, -⟩ := p.head? []
  rw [List.append_nil] at hhead
  cases hchars : p.chars with
  | nil =>
    rw [hchars] at hhead
    cases hhead
  | cons c tail => exact Nat.succ_pos _

end ClassAtlas
