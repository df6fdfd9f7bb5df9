import ClassAtlas.Proofs.Sites
import ClassAtlas.Proofs.Spelling

/-! A snapshot may be presented in many ways (`Snapshot.parse_restated`). Anywhere in its text the members of a record
may change places, members that are no fields may be put in, and fields that have their defaults may be left out. -/

namespace ClassAtlas

open Reader

/-- The second passage presents in another way what the first one does at a site. -/
inductive Restates : Site → Passage → Passage → Prop
  | permute {kind : RecordKind} {ms ns : List (Key × Passage)} {before closing after : Blanks} (perm : ms.Perm ns) :
      Restates (.record kind) (.object before ms closing after) (.object before ns closing after)
  /-- An element keeps what is no field of it, so that must be made of characters and of numbers that stay finite. -/
  | insert {kind : RecordKind} {ms ns : List (Key × Passage)} {key : Key} {name : String} {value : Passage}
      {before closing after : Blanks} (named : key.name = some name) (unknown : name ∉ kind.keys)
      (kept : kind = .element → value.document.sound = true) :
      Restates (.record kind) (.object before (ms ++ ns) closing after)
        (.object before (ms ++ (key, value) :: ns) closing after)
  | remove {kind : RecordKind} {ms ns : List (Key × Passage)} {key : Key} {name : String} {value : Passage}
      {before closing after : Blanks} (named : key.name = some name) (default : kind.Default name value.document) :
      Restates (.record kind) (.object before (ms ++ (key, value) :: ns) closing after)
        (.object before (ms ++ ns) closing after)
  /-- In a field of a record. -/
  | member {kind : RecordKind} {ms ns : List (Key × Passage)} {key : Key} {name : String} {site : Site}
      {value value' : Passage} {before closing after : Blanks} (named : key.name = some name)
      (sited : (name, site) ∈ kind.sites) (restates : Restates site value value') :
      Restates (.record kind) (.object before (ms ++ (key, value) :: ns) closing after)
        (.object before (ms ++ (key, value') :: ns) closing after)
  /-- In a field of a record that is an array of its fields. -/
  | field {kind : RecordKind} {items more : List Passage} {name : String} {site : Site} {value value' : Passage}
      {before closing after : Blanks} (named : kind.keys[items.length]? = some name)
      (sited : (name, site) ∈ kind.sites) (restates : Restates site value value') :
      Restates (.record kind) (.array before (items ++ value :: more) closing after)
        (.array before (items ++ value' :: more) closing after)
  | item {kind : RecordKind} {items more : List Passage} {value value' : Passage} {before closing after : Blanks}
      (restates : Restates (.record kind) value value') :
      Restates (.list kind) (.array before (items ++ value :: more) closing after)
        (.array before (items ++ value' :: more) closing after)
  | operation {key : Key} {value value' : Passage} {before closing after : Blanks} (named : key.name = some "operation")
      (restates : Restates (.record .operation) value value') :
      Restates .details (.object before [(key, value)] closing after) (.object before [(key, value')] closing after)

namespace Restates

variable {site : Site} {p p' : Passage}

/-- What is restated holds a record, so it is not null. -/
theorem ne_null (h : Restates site p p') : p.document ≠ .null ∧ p'.document ≠ .null := by
  cases h <;> exact ⟨nofun, nofun⟩

/-- What is read from the first passage is also read from the second. -/
theorem keeps (h : Restates site p p') : ∀ depth, (site.readAt depth).Keeps p.document p'.document := by
  induction h with
  | permute perm =>
    intro depth
    rw [Passage.document, Passage.document, Passage.memberDocuments_eq_map, Passage.memberDocuments_eq_map]
    exact (RecordKind.presentable depth _).permute (perm.map _)
  | @insert kind ms ns key name value before closing after named unknown kept =>
    intro depth
    have hadmits : kind.Admits value.document := by
      cases kind with
      | element => exact kept rfl
      | _ => exact value.wellFormed_document
    rw [Passage.document_object, Passage.document_object, Passage.memberDocuments, named]
    exact (kind.presentable depth).insert unknown hadmits
  | @remove kind ms ns key name value before closing after named default =>
    intro depth
    rw [Passage.document_object, Passage.document_object, Passage.memberDocuments, named]
    exact (kind.presentable depth).remove default
  | member named sited restates ih =>
    intro depth
    rw [Passage.document_object, Passage.document_object, Passage.memberDocuments, Passage.memberDocuments, named]
    exact (RecordKind.keeps_site sited ih restates.ne_null depth).1 _ _
  | @field kind items more name site value value' before closing after named sited restates ih =>
    intro depth
    rw [Passage.document_array, Passage.document_array]
    refine (RecordKind.keeps_site sited ih restates.ne_null depth).2 _ _ ?_
    rwa [Passage.documents_eq_map, List.length_map]
  | item restates ih =>
    intro depth
    rw [Passage.document_array, Passage.document_array]
    exact (ih depth).item _ _
  | operation named restates ih =>
    intro depth
    rw [Passage.document, Passage.document, Passage.memberDocuments, Passage.memberDocuments, Passage.memberDocuments,
      named]
    exact Details.keeps_operation (ih depth)

end Restates

/-! Passages without blanks. -/

namespace Passage

def tightObject (ms : List (Key × Passage)) : Passage := .object .none ms .none .none

def tightArray (p : Passage) : Passage := .array .none [p] .none .none

def tightMember (name : String) (value : Passage) : Key × Passage := (Json.keyBehind .none name, value)

def tight (j : Json) : Passage := j.passage .compact 0 .none

end Passage

namespace Restates

open Passage

variable {kind : RecordKind} {value value' : Passage}

theorem in_tightArray (h : Restates (.record kind) value value') :
    Restates (.list kind) (tightArray value) (tightArray value') := by
  have hitem : Restates (.list kind) (.array .none ([] ++ [value]) .none .none)
      (.array .none ([] ++ [value']) .none .none) := .item h
  exact hitem

theorem in_operation (h : Restates (.record .operation) value value') :
    Restates .details (tightObject [tightMember "operation" value]) (tightObject [tightMember "operation" value']) :=
  .operation (Json.name_keyBehind .none "operation") h

theorem in_tightObject {name : String} {site : Site} (ms : List (Key × Passage)) (sited : (name, site) ∈ kind.sites)
    (h : Restates site value value') : Restates (.record kind) (tightObject (ms ++ [tightMember name value]))
      (tightObject (ms ++ [tightMember name value'])) :=
  .member (Json.name_keyBehind .none name) sited h

end Restates

namespace Reader

variable {α : Type} {read : Reader α} {a : α}

/-- The whole text is one value, and that is read. -/
theorem parse_eq_ok_iff {text : String} :
    read.parse text = .ok a ↔ (Scan.document text.toList).2 = true ∧ read (Scan.document text.toList).1 = .ok a := by
  rw [parse]
  generalize Scan.document text.toList = found
  obtain ⟨d, alone⟩ := found
  refine bind_eq_ok_iff.trans ?_
  cases alone with
  | true => simp
  | false => simp

/-- Reading the text of a passage is reading its document. -/
theorem parse_text {p : Passage} (hdepth : p.depth ≤ nestingLimit) :
    read.parse p.text = .ok a ↔ read p.document = .ok a := by
  rw [parse_eq_ok_iff, Passage.document_text hdepth, and_iff_right rfl]

end Reader

namespace Snapshot

/-- A text that is read as a snapshot is that of a passage, and the same snapshot is read when this is restated, unless
the nesting limit is passed. -/
theorem parse_restated {text : String} {s : Snapshot} (h : parse text = .ok s) :
    (∃ p : Passage, p.text = text) ∧
      ∀ p p' : Passage, p.text = text → Restates (.record .snapshot) p p' → p.depth ≤ nestingLimit →
        p'.depth ≤ nestingLimit → parse p'.text = .ok s := by
  constructor
  · obtain ⟨halone, hread⟩ := parse_eq_ok_iff.1 h
    exact exists_passage halone (checks _ _ hread)
  · rintro p p' rfl hrestates hdepth hdepth'
    have hread : read p.document = .ok s := (parse_text hdepth).1 h
    exact (parse_text hdepth').2 (hrestates.keeps nestingLimit s hread)

open Passage

/-- An element must have these. -/
def nameAndKind (name kind : String) : List (Key × Passage) :=
  [tightMember "name" (tight (.string name)), tightMember "kind" (tight (.string kind))]

/-- The parameter of an operation of a class. -/
def parameterized (parameter : List (Key × Passage)) : Passage :=
  tightObject [tightMember "classes" (tightArray (tightObject [tightMember "id" (tight (.string "A")),
    tightMember "members" (tightArray (tightObject (nameAndKind "m" "METHODS" ++ [tightMember "details" (tightObject
      [tightMember "operation" (tightObject [tightMember "parameters" (tightArray (tightObject parameter))])])])))]))]

theorem restates_parameterized {ms ns : List (Key × Passage)}
    (h : Restates (.record .element) (tightObject ms) (tightObject ns)) :
    Restates (.record .snapshot) (parameterized ms) (parameterized ns) := by
  have hoperation : Restates (.record .operation) _ _ := h.in_tightArray.in_tightObject [] (.head _)
  have hmember : Restates (.record .element) _ _ :=
    hoperation.in_operation.in_tightObject (nameAndKind "m" "METHODS") (.tail _ (.tail _ (.head _)))
  have hclass : Restates (.record .classDeclaration) _ _ :=
    hmember.in_tightArray.in_tightObject [tightMember "id" (tight (.string "A"))] (.tail _ (.tail _ (.head _)))
  exact hclass.in_tightArray.in_tightObject [] (.head _)

theorem parse_restated_parameter :
    let name := tightMember "name" (tight (.string "f"))
    let kind := tightMember "kind" (tight (.string "PARAMETERS"))
    let noType := tightMember "type" (tight .null)
    let note := tightMember "note" (tight (.array [.number 1]))
    ∃ s, parse (parameterized [name, kind, noType]).text = .ok s ∧
      ∀ ms ∈ [[kind, name, noType], [name, note, kind, noType], [name, kind]],
        parse (parameterized ms).text = .ok s := by
  intro name kind noType note
  have hdepth : ∀ ms ∈ [[name, kind, noType], [kind, name, noType], [name, note, kind, noType], [name, kind]],
      (parameterized ms).depth ≤ nestingLimit := by decide +kernel
  have hpermute : Restates (.record .element) (tightObject [name, kind, noType])
      (tightObject [kind, name, noType]) := .permute (.swap ..)
  have hinsert : Restates (.record .element) (tightObject ([name] ++ [kind, noType]))
      (tightObject ([name] ++ note :: [kind, noType])) := by
    refine .insert (Json.name_keyBehind .none "note") ?_ fun _ => ?_
    · decide +kernel
    · decide +kernel
  have hremove : Restates (.record .element) (tightObject ([name, kind] ++ [noType]))
      (tightObject ([name, kind] ++ [])) := by
    refine .remove (Json.name_keyBehind .none "type") ?_
    exact Or.inl ⟨.declaredType, none, rfl, rfl, rfl⟩
  have hok : (read (parameterized [name, kind, noType]).document).isOk = true := by decide +kernel
  cases hread : read (parameterized [name, kind, noType]).document with
  | error fault =>
    rw [hread] at hok
    cases hok
  | ok s =>
    have hparse : parse (parameterized [name, kind, noType]).text = .ok s :=
      (parse_text (hdepth _ (List.mem_cons_self ..))).2 hread
    refine ⟨s, hparse, fun ms hms => ?_⟩
    refine (parse_restated hparse).2 _ _ rfl (restates_parameterized ?_) (hdepth _ (List.mem_cons_self ..))
      (hdepth _ (List.mem_cons_of_mem _ hms))
    simp only [List.mem_cons, List.not_mem_nil, or_false] at hms
    rcases hms with rfl | rfl | rfl
    · exact hpermute
    · exact hinsert
    · exact hremove

/-- A class and a member of it, with more put into each. -/
def insertedText (inClass inMember : String) : String :=
  "\x7b\"classes\":[\x7b\"id\":\"A\"" ++ inClass ++ ",\"members\":[\x7b\"name\":\"f\",\"kind\":\"FIELDS\"" ++ inMember ++
    "\x7d]\x7d]\x7d"

/-- What is no field of an element is kept, so it must be made of characters and of numbers that stay finite, also where
the exact number would and only the product of roundings does not, and every key is read. -/
theorem not_parse_inserted :
    (parse (insertedText "" "")).isOk = true ∧ (parse (insertedText "" ",\"x\":1e999")).isOk = false ∧
      (parse (insertedText "" ",\"x\":1.797693134862315708e308")).isOk = false ∧
      (parse (insertedText "" ",\"x\":\"\\ud800\"")).isOk = false ∧
      (parse (insertedText ",\"\\ud800\":1" "")).isOk = false := by
  decide +kernel

end Snapshot

end ClassAtlas
