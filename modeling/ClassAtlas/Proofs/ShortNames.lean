import ClassAtlas.Model.Basic
import ClassAtlas.Proofs.Qualifiers

/-! Short names are stripped part by part (`shortName_stripped`). What is written between the parts of a declaration
begins and ends with characters that no qualifier has (`Glue`), so that the qualifiers of the whole are those of its
parts. -/

namespace ClassAtlas

namespace Qualifier

/-- A character of neither words nor separators. -/
structure Parting (c : Char) : Prop where
  word : isWordChar c = false
  separator : isSeparator c = false

/-- A text that begins and ends with a parting character, with words and more of these in between. -/
inductive Glue : List Char → Prop
  | single {d : Char} (hd : Parting d) : Glue [d]
  | cons {d : Char} {w g : List Char} (hd : Parting d) (hw : ∀ x ∈ w, isWordChar x = true) (hg : Glue g) :
    Glue (d :: (w ++ g))

variable {g back : List Char} {d : Char} {start dot : Nat}

theorem strip_glue (hg : Glue g) (front back : List Char) :
    strip (front ++ (g ++ back)) = strip front ++ (g ++ strip back) := by
  induction hg generalizing front with
  | single hd => exact strip_parted hd.word hd.separator front back
  | @cons d w g hd hw _ ih =>
    calc strip (front ++ (d :: (w ++ g) ++ back))
        = strip (front ++ d :: (w ++ (g ++ back))) := by rw [List.cons_append, List.append_assoc]
      _ = strip front ++ d :: strip (w ++ (g ++ back)) := strip_parted hd.word hd.separator _ _
      _ = strip front ++ (d :: (w ++ g) ++ strip back) := by
        rw [ih, strip_word hw, List.cons_append, List.append_assoc]

theorem occurs_parted (hd : Parting d) (front : List Char) : Occurs (front ++ d :: back) start dot ↔
    Occurs front start dot ∨
      ∃ s e, Occurs back s e ∧ start = front.length + 1 + s ∧ dot = front.length + 1 + e := by
  induction front using run_induction generalizing start dot with
  | word w hw =>
    rw [occurs_run hw hd.word]
    simp [hd.separator, not_occurs_word hw]
  | run w c rest hw hc ih =>
    rw [List.append_assoc, List.cons_append, occurs_run hw hc, occurs_run hw hc, List.length_append, List.length_cons]
    constructor
    · rintro (hfirst | ⟨s, e, h, rfl, rfl⟩)
      · exact Or.inl (Or.inl hfirst)
      · rcases ih.1 h with h' | ⟨s', e', h', rfl, rfl⟩
        · exact Or.inl (Or.inr ⟨s, e, h', rfl, rfl⟩)
        · exact Or.inr ⟨s', e', h', by omega, by omega⟩
    · rintro ((hfirst | ⟨s, e, h, rfl, rfl⟩) | ⟨s, e, h, rfl, rfl⟩)
      · exact Or.inl hfirst
      · exact Or.inr ⟨s, e, ih.2 (Or.inl h), rfl, rfl⟩
      · exact Or.inr ⟨_, _, ih.2 (Or.inr ⟨s, e, h, rfl, rfl⟩), by omega, by omega⟩

theorem occurs_glue (hg : Glue g) (front back : List Char) : Occurs (front ++ (g ++ back)) start dot ↔
    Occurs front start dot ∨
      ∃ s e, Occurs back s e ∧ start = front.length + g.length + s ∧ dot = front.length + g.length + e := by
  induction hg generalizing front with
  | single hd => exact occurs_parted hd front
  | @cons d w g hd hw _ ih =>
    -- the words in between end where the next part of the glue begins
    have hjoined : front ++ (d :: (w ++ g) ++ back) = (front ++ d :: w) ++ (g ++ back) := by simp
    have hwords : Occurs (front ++ d :: w) start dot ↔ Occurs front start dot := by
      rw [occurs_parted hd]
      simp [not_occurs_word hw]
    rw [hjoined, ih, hwords]
    simp only [List.length_append, List.length_cons, Nat.add_assoc, Nat.add_comm, Nat.add_left_comm]

end Qualifier

open Qualifier

theorem glue_openBracket : Glue "<".toList := .single ⟨by decide, by decide⟩

theorem glue_closeBracket : Glue ">".toList := .single ⟨by decide, by decide⟩

theorem glue_comma : Glue ", ".toList :=
  .cons (w := []) ⟨by decide, by decide⟩ (by simp) (.single ⟨by decide, by decide⟩)

theorem glue_ampersand : Glue " & ".toList :=
  .cons (w := []) ⟨by decide, by decide⟩ (by simp)
    (.cons (w := []) ⟨by decide, by decide⟩ (by simp) (.single ⟨by decide, by decide⟩))

theorem glue_extends : Glue " extends ".toList :=
  .cons (w := "extends".toList) ⟨by decide, by decide⟩ (List.all_eq_true.1 (by decide))
    (.single ⟨by decide, by decide⟩)

section Texts

variable {glue : String} (hg : Glue glue.toList)

include hg

theorem stripQualifiers_glue (a b : String) :
    stripQualifiers (a ++ glue ++ b) = stripQualifiers a ++ glue ++ stripQualifiers b := by
  rw [← String.toList_inj]
  simp only [toList_stripQualifiers, String.toList_append, List.append_assoc]
  exact strip_glue hg _ _

theorem stripQualifiers_intercalate (texts : List String) :
    stripQualifiers (glue.intercalate texts) = glue.intercalate (texts.map stripQualifiers) := by
  induction texts with
  | nil => rfl
  | cons a texts ih =>
    cases texts with
    | nil => rfl
    | cons b texts =>
      rw [String.intercalate_cons_cons, stripQualifiers_glue hg, ih]
      simp only [List.map_cons, String.intercalate_cons_cons]

end Texts

/-- The reference with its name, and those of its direct bounds, without qualifiers. -/
def TypeRef.stripped (t : TypeRef) : TypeRef :=
  { name := t.shortName
    bounds := t.bounds.map fun b => { b with name := b.shortName } }

theorem TypeRef.declaration_stripped (t : TypeRef) : stripQualifiers t.declaration = t.stripped.declaration := by
  obtain ⟨name, bounds⟩ := t
  cases bounds with
  | nil => rfl
  | cons b bounds =>
    simp only [declaration, stripped, List.isEmpty_cons, List.map_cons, Bool.false_eq_true, if_false]
    rw [stripQualifiers_glue glue_extends, stripQualifiers_intercalate glue_ampersand, List.map_cons, List.map_map,
      List.map_map]
    rfl

theorem stripQualifiers_declared (name : String) (parameters : List TypeRef) :
    stripQualifiers (name ++ declareTypeParameters parameters) =
      stripQualifiers name ++ declareTypeParameters (parameters.map TypeRef.stripped) := by
  cases parameters with
  | nil => simp [declareTypeParameters]
  | cons t ts =>
    have hstripped : ((t :: ts).map (·.declaration)).map stripQualifiers =
        ((t :: ts).map TypeRef.stripped).map (·.declaration) := by
      rw [List.map_map, List.map_map]
      exact List.map_congr_left fun t _ => t.declaration_stripped
    -- nothing comes after the closing bracket, which is glue all the same
    calc stripQualifiers (name ++ declareTypeParameters (t :: ts))
        = stripQualifiers (name ++ "<" ++ ", ".intercalate ((t :: ts).map (·.declaration)) ++ ">" ++ "") := by
          simp [declareTypeParameters, String.append_assoc]
      _ = stripQualifiers name ++ "<" ++
            ", ".intercalate (((t :: ts).map (·.declaration)).map stripQualifiers) ++ ">" ++ "" := by
          rw [stripQualifiers_glue glue_closeBracket, stripQualifiers_glue glue_openBracket,
            stripQualifiers_intercalate glue_comma]
          rfl
      _ = stripQualifiers name ++ declareTypeParameters ((t :: ts).map TypeRef.stripped) := by
          rw [hstripped]
          simp [declareTypeParameters, String.append_assoc]

namespace ClassNode

/-- The short name of a class is put together like its full one, from stripped parts; and what is put between the parts
belongs to no qualifier, whatever the parts are. -/
theorem shortName_stripped (n : ClassNode) :
    n.shortName = stripQualifiers n.element.name ++ declareTypeParameters (n.typeParameters.map TypeRef.stripped) ∧
    ∀ glue ∈ ["<", ", ", " extends ", " & ", ">"], ∀ (a b : String) (start dot : Nat),
      Occurs (a ++ glue ++ b).toList start dot ↔ Occurs a.toList start dot ∨
        ∃ s d, Occurs b.toList s d ∧ start = a.length + glue.length + s ∧ dot = a.length + glue.length + d := by
  refine ⟨stripQualifiers_declared _ _, fun glue hmem a b start dot => ?_⟩
  have hg : Glue glue.toList := by
    simp only [List.mem_cons, List.not_mem_nil, or_false] at hmem
    rcases hmem with rfl | rfl | rfl | rfl | rfl
    exacts [glue_openBracket, glue_comma, glue_extends, glue_ampersand, glue_closeBracket]
  rw [String.toList_append, String.toList_append, List.append_assoc, occurs_glue hg]
  simp only [String.length_toList]

/-- A class whose name ends with a qualifier, with a bound that has no name. -/
def ragged : ClassNode :=
  let element : Element := { attributes := { id := "p.Map", name := "p.Map$", kind := .classType } }
  ((ClassModel.empty .byName).extend element [⟨"q.T", [⟨"r.A$1.B", []⟩, ⟨"", []⟩]⟩, ⟨"$U", []⟩]).classAt 0

/-- The `1` of a bound does not keep the qualifier before `extends`. -/
theorem shortName_stripped_ragged :
    ragged.shortName = "<T extends A$B & , $U>" ∧ " extends " ∈ ["<", ", ", " extends ", " & ", ">"] ∧
      Occurs ("q.T$" ++ " extends " ++ "1.B").toList 2 3 ∧ Occurs ("q.T$" ++ " extends " ++ "1.B").toList 13 14 := by
  obtain ⟨hname, hglue⟩ := shortName_stripped ragged
  have hmem : " extends " ∈ ["<", ", ", " extends ", " & ", ">"] := by decide
  have hparts := hglue " extends " hmem "q.T$" "1.B"
  refine ⟨?_, hmem, (hparts 2 3).2 (Or.inl ?_), (hparts 13 14).2 (Or.inr ⟨0, 1, ?_, ?_, ?_⟩)⟩
  · rw [hname]
    decide +kernel
  all_goals decide +kernel

end ClassNode

end ClassAtlas
