import ClassAtlas.Proofs.Scanning

/-! What is written is scanned as it was meant. The compact and the pretty form are spellings of a value that differ
in blanks only (`writeOnto_eq_spell`, `prettyOnto_eq_spell`), and the document of a spelling is that of the value, as
long as its arrays and objects nest no deeper than the limit (`document_compact`, `document_pretty`). -/

namespace ClassAtlas

open Scan

namespace Json

mutual

/-- How deep the arrays and objects of a value nest. -/
def depth : Json → Nat
  | .array items => depthItems items + 1
  | .object members => depthMembers members + 1
  | _ => 0

def depthItems : List Json → Nat
  | [] => 0
  | item :: items => max (depth item) (depthItems items)

def depthMembers : List (String × Json) → Nat
  | [] => 0
  | (_, value) :: members => max (depth value) (depthMembers members)

end

mutual

/-- The value as a document. -/
def document : Json → Document
  | .null => .null
  | .bool b => .bool b
  | .number n => .number (.ofNat n)
  | .string s => .string (some s)
  | .array items => .array (documents items) true
  | .object members => .object (memberDocuments members) true

def documents : List Json → List Document
  | [] => []
  | item :: items => document item :: documents items

def memberDocuments : List (String × Json) → List (Option String × Document)
  | [] => []
  | (key, value) :: members => (some key, document value) :: memberDocuments members

end

/-- Where a writer leaves blanks: in front of what stands on a line of its own at some level, and after a colon. -/
structure Layout where
  line : Nat → List Char
  gap : List Char
  blank_line : ∀ level, ∀ c ∈ line level, isBlank c = true
  blank_gap : ∀ c ∈ gap, isBlank c = true

namespace Layout

def compact : Layout where
  line _ := []
  gap := []
  blank_line _ := Blanks.none.blank
  blank_gap := Blanks.none.blank

def pretty : Layout where
  line level := '\n' :: List.replicate (2 * level) ' '
  gap := [' ']
  blank_line level c hc := by
    rcases List.mem_cons.1 hc with rfl | hc
    · rfl
    · rw [List.eq_of_mem_replicate hc]
      rfl
  blank_gap := by simp [isBlank]

end Layout

section Spell

variable (L : Layout)

mutual

/-- The value as a layout spells it on a line of the given level, in front of `rest`. -/
def spellOnto (level : Nat) (rest : List Char) : Json → List Char
  | .null => "null".toList ++ rest
  | .bool true => "true".toList ++ rest
  | .bool false => "false".toList ++ rest
  | .number n => n.repr.toList ++ rest
  | .string s => quoteOnto s.toList rest
  | .array [] => '[' :: ']' :: rest
  | .array (item :: items) =>
    '[' :: (L.line (level + 1) ++ spellOnto (level + 1) (spellItemsOnto level rest items) item)
  | .object [] => '\x7b' :: '\x7d' :: rest
  | .object ((key, value) :: members) =>
    '\x7b' :: (L.line (level + 1) ++ quoteOnto key.toList
      (':' :: (L.gap ++ spellOnto (level + 1) (spellMembersOnto level rest members) value)))

def spellItemsOnto (level : Nat) (rest : List Char) : List Json → List Char
  | [] => L.line level ++ ']' :: rest
  | item :: items =>
    ',' :: (L.line (level + 1) ++ spellOnto (level + 1) (spellItemsOnto level rest items) item)

def spellMembersOnto (level : Nat) (rest : List Char) : List (String × Json) → List Char
  | [] => L.line level ++ '\x7d' :: rest
  | (key, value) :: members =>
    ',' :: (L.line (level + 1) ++ quoteOnto key.toList
      (':' :: (L.gap ++ spellOnto (level + 1) (spellMembersOnto level rest members) value)))

end

end Spell

mutual

theorem writeOnto_eq_spell (level : Nat) (rest : List Char) :
    ∀ j : Json, j.writeOnto rest = j.spellOnto .compact level rest
  | .null | .bool true | .bool false | .number _ | .string _ | .array [] | .object [] => rfl
  | .array (item :: items) => by
    change '[' :: writeOnto (writeItemsOnto rest items) item = _
    rw [writeItemsOnto_eq_spell level rest items, writeOnto_eq_spell (level + 1) _ item]
    rfl
  | .object ((key, value) :: members) => by
    change '\x7b' :: quoteOnto key.toList (':' :: writeOnto (writeMembersOnto rest members) value) = _
    rw [writeMembersOnto_eq_spell level rest members, writeOnto_eq_spell (level + 1) _ value]
    rfl

theorem writeItemsOnto_eq_spell (level : Nat) (rest : List Char) :
    ∀ items, writeItemsOnto rest items = spellItemsOnto .compact level rest items
  | [] => rfl
  | item :: items => by
    rw [writeItemsOnto, writeItemsOnto_eq_spell level rest items, writeOnto_eq_spell (level + 1) _ item]
    rfl

theorem writeMembersOnto_eq_spell (level : Nat) (rest : List Char) :
    ∀ members, writeMembersOnto rest members = spellMembersOnto .compact level rest members
  | [] => rfl
  | (key, value) :: members => by
    rw [writeMembersOnto, writeMembersOnto_eq_spell level rest members, writeOnto_eq_spell (level + 1) _ value]
    rfl

end

mutual

theorem prettyOnto_eq_spell (level : Nat) (rest : List Char) :
    ∀ j : Json, j.prettyOnto level rest = j.spellOnto .pretty level rest
  | .null | .bool true | .bool false | .number _ | .string _ | .array [] | .object [] => rfl
  | .array (item :: items) => by
    change '[' :: newline (level + 1) (prettyOnto (level + 1) (prettyItemsOnto level rest items) item) = _
    rw [prettyItemsOnto_eq_spell level rest items, prettyOnto_eq_spell (level + 1) _ item]
    rfl
  | .object ((key, value) :: members) => by
    change '\x7b' :: newline (level + 1) (quoteOnto key.toList
      (':' :: ' ' :: prettyOnto (level + 1) (prettyMembersOnto level rest members) value)) = _
    rw [prettyMembersOnto_eq_spell level rest members, prettyOnto_eq_spell (level + 1) _ value]
    rfl

theorem prettyItemsOnto_eq_spell (level : Nat) (rest : List Char) :
    ∀ items, prettyItemsOnto level rest items = spellItemsOnto .pretty level rest items
  | [] => rfl
  | item :: items => by
    rw [prettyItemsOnto, prettyItemsOnto_eq_spell level rest items, prettyOnto_eq_spell (level + 1) _ item]
    rfl

theorem prettyMembersOnto_eq_spell (level : Nat) (rest : List Char) :
    ∀ members, prettyMembersOnto level rest members = spellMembersOnto .pretty level rest members
  | [] => rfl
  | (key, value) :: members => by
    rw [prettyMembersOnto, prettyMembersOnto_eq_spell level rest members, prettyOnto_eq_spell (level + 1) _ value]
    rfl

end

/-- The key of a member behind some blanks. -/
def keyBehind (before : Blanks) (key : String) : Key :=
  ⟨before, key.toList.flatMap escapeChar, key.toList.map Char.toNat, quoted_escaped _, .none⟩

namespace Layout

def lineBlanks (L : Layout) (level : Nat) : Blanks := ⟨L.line level, L.blank_line level⟩

def gapBlanks (L : Layout) : Blanks := ⟨L.gap, L.blank_gap⟩

end Layout

section Passages

variable (L : Layout)

mutual

/-- What a layout makes of a value behind some blanks. -/
def passage (level : Nat) (before : Blanks) : Json → Passage
  | .null => .scalar before ⟨_, _, .null⟩ .none
  | .bool true => .scalar before ⟨_, _, .true⟩ .none
  | .bool false => .scalar before ⟨_, _, .false⟩ .none
  | .number n => .scalar before ⟨_, _, .number (Numeral.literal_ofNat n)⟩ .none
  | .string s => .scalar before ⟨_, _, .string (quoted_escaped s.toList)⟩ .none
  | .array [] => .array before [] .none .none
  | .array (item :: items) => .array before (passages level (item :: items)) (L.lineBlanks level) .none
  | .object [] => .object before [] .none .none
  | .object (m :: ms) => .object before (memberPassages level (m :: ms)) (L.lineBlanks level) .none

def passages (level : Nat) : List Json → List Passage
  | [] => []
  | item :: items => passage (level + 1) (L.lineBlanks (level + 1)) item :: passages level items

def memberPassages (level : Nat) : List (String × Json) → List (Key × Passage)
  | [] => []
  | (key, value) :: ms =>
    (keyBehind (L.lineBlanks (level + 1)) key, passage (level + 1) L.gapBlanks value) :: memberPassages level ms

end

end Passages

variable {L : Layout} {level : Nat} {before : Blanks} {rest : List Char}

theorem chars_keyBehind (before : Blanks) (key : String) (rest : List Char) :
    (keyBehind before key).chars ++ rest = before.chars ++ quoteOnto key.toList rest := by
  simp [keyBehind, Key.chars, quoteOnto]

theorem name_keyBehind (before : Blanks) (key : String) : (keyBehind before key).name = some key := by
  simp [keyBehind, Key.name, decode?_toNat, String.ofList_toList]

mutual

/-- The passage has the spelling for its text. -/
theorem chars_passage : ∀ (j : Json) {level : Nat} {before : Blanks} {rest : List Char},
    (passage L level before j).chars ++ rest = before.chars ++ j.spellOnto L level rest
  | .null, _, _, _ | .bool true, _, _, _ | .bool false, _, _, _ | .number _, _, _, _ => Passage.chars_scalar
  | .string s, _, _, rest => by
    refine Passage.chars_scalar.trans (congrArg _ ?_)
    change '"' :: (s.toList.flatMap escapeChar ++ ['"']) ++ rest = _
    rw [List.cons_append, List.append_assoc]
    rfl
  | .array [], _, _, _ => Passage.chars_array []
  | .object [], _, _, _ => Passage.chars_object
  | .array (item :: items), _, before, _ =>
    (Passage.chars_array _).trans
      (congrArg (before.chars ++ '[' :: ·) (chars_passages (item :: items) (List.cons_ne_nil _ _)))
  | .object (m :: ms), _, before, _ =>
    Passage.chars_object.trans
      (congrArg (before.chars ++ '\x7b' :: ·) (chars_memberPassages (m :: ms) (List.cons_ne_nil _ _)))

/-- The items of a list, from the first of them on. -/
theorem chars_passages : ∀ (items : List Json) {level : Nat} {rest : List Char}, items ≠ [] →
    Passage.itemsText (passages L level items) (L.lineBlanks level) rest = (spellItemsOnto L level rest items).tail
  | [], _, _, hne => absurd rfl hne
  | [item], _, _, _ => by
    rw [passages, passages, Passage.itemsText_singleton, chars_passage item]
    rfl
  | item :: next :: items, _, _, _ => by
    rw [passages, passages, Passage.itemsText_cons_cons, ← passages,
      chars_passages (next :: items) (List.cons_ne_nil _ _), chars_passage item]
    rfl

theorem chars_memberPassages : ∀ (ms : List (String × Json)) {level : Nat} {rest : List Char}, ms ≠ [] →
    Passage.membersText (memberPassages L level ms) (L.lineBlanks level) rest = (spellMembersOnto L level rest ms).tail
  | [], _, _, hne => absurd rfl hne
  | [(key, value)], _, _, _ => by
    rw [memberPassages, memberPassages, Passage.membersText_singleton, chars_keyBehind, chars_passage value]
    rfl
  | (key, value) :: (next, j) :: ms, _, _, _ => by
    rw [memberPassages, memberPassages, Passage.membersText_cons_cons, ← memberPassages,
      chars_memberPassages ((next, j) :: ms) (List.cons_ne_nil _ _), chars_keyBehind, chars_passage value]
    rfl

end

mutual

theorem document_passage : ∀ (j : Json) (level : Nat) (before : Blanks),
    (passage L level before j).document = j.document
  | .null, _, _ | .bool true, _, _ | .bool false, _, _ | .number _, _, _ | .array [], _, _ | .object [], _, _ => rfl
  | .string s, _, _ => by
    simp [passage, Passage.document, document, decode?_toNat, String.ofList_toList]
  | .array (item :: items), level, _ => by
    rw [passage, Passage.document, documents_passages (item :: items), document]
  | .object (m :: ms), level, _ => by
    rw [passage, Passage.document, memberDocuments_passages (m :: ms), document]

theorem documents_passages : ∀ (items : List Json) (level : Nat),
    Passage.documents (passages L level items) = documents items
  | [], _ => rfl
  | item :: items, level => by
    rw [passages, Passage.documents, document_passage item, documents_passages items, documents]

theorem memberDocuments_passages : ∀ (ms : List (String × Json)) (level : Nat),
    Passage.memberDocuments (memberPassages L level ms) = memberDocuments ms
  | [], _ => rfl
  | (key, value) :: ms, level => by
    rw [memberPassages, Passage.memberDocuments, document_passage value, memberDocuments_passages ms, name_keyBehind,
      memberDocuments]

end

mutual

theorem depth_passage : ∀ (j : Json) (level : Nat) (before : Blanks), (passage L level before j).depth = j.depth
  | .null, _, _ | .bool true, _, _ | .bool false, _, _ | .number _, _, _ | .string _, _, _ | .array [], _, _
  | .object [], _, _ => rfl
  | .array (item :: items), level, _ => by rw [passage, Passage.depth, depthItems_passages (item :: items), depth]
  | .object (m :: ms), level, _ => by rw [passage, Passage.depth, depthMembers_passages (m :: ms), depth]

theorem depthItems_passages : ∀ (items : List Json) (level : Nat),
    Passage.depthItems (passages L level items) = depthItems items
  | [], _ => rfl
  | item :: items, level => by
    rw [passages, Passage.depthItems, depth_passage item, depthItems_passages items, depthItems]

theorem depthMembers_passages : ∀ (ms : List (String × Json)) (level : Nat),
    Passage.depthMembers (memberPassages L level ms) = depthMembers ms
  | [], _ => rfl
  | (key, value) :: ms, level => by
    rw [memberPassages, Passage.depthMembers, depth_passage value, depthMembers_passages ms, depthMembers]

end

/-- A spelling that stands alone is the text of its value. -/
theorem document_spell {j : Json} (hdepth : j.depth ≤ nestingLimit) :
    Scan.document (j.spellOnto L 0 []) = (j.document, true) := by
  have hpassage := Passage.document_chars (p := passage L 0 .none j) (by rw [depth_passage]; exact hdepth)
  have hchars : (passage L 0 .none j).chars ++ [] = _ := chars_passage j
  rw [List.append_nil] at hchars
  rw [hchars, document_passage] at hpassage
  exact hpassage

theorem document_compact {j : Json} (hdepth : j.depth ≤ nestingLimit) :
    Scan.document j.compact.toList = (j.document, true) := by
  rw [compact, String.toList_ofList, writeOnto_eq_spell 0]
  exact document_spell hdepth

theorem document_pretty {j : Json} (hdepth : j.depth ≤ nestingLimit) :
    Scan.document j.pretty.toList = (j.document, true) := by
  rw [pretty, String.toList_ofList, prettyOnto_eq_spell]
  exact document_spell hdepth

end Json

end ClassAtlas
