import ClassAtlas.Model.Node
import ClassAtlas.Proofs.Replacing

/-! The UML name of a class is its namespace followed by its simple name, and gives the id back, as long as the id has
no colon of its own (`umlName_parts`). The last double colon of the name is then where the last dot of the id is, since
what stands behind that dot has no colon that the second one could pair with. -/

namespace ClassAtlas

namespace QualifiedName

variable {id text front last : List Char}

theorem exists_last_dot (h : '.' ∈ id) : ∃ front last, id = front ++ '.' :: last ∧ '.' ∉ last := by
  obtain ⟨back, rest, e, hno⟩ := List.eq_append_cons_of_mem (List.mem_reverse.2 h)
  refine ⟨rest.reverse, back.reverse, ?_, by simpa using hno⟩
  simpa using congrArg List.reverse e

theorem ne_dot_of_notMem (h : '.' ∉ last) : ∀ c ∈ last.reverse, decide (c ≠ '.') = true := by
  intro c hc
  have hne : c ≠ '.' := fun e => h (e ▸ List.mem_reverse.1 hc)
  simpa using hne

theorem simple_append (h : '.' ∉ last) : simple (front ++ '.' :: last) = last := by
  have hreverse : (front ++ '.' :: last).reverse = last.reverse ++ '.' :: front.reverse := by simp
  rw [simple, hreverse, List.takeWhile_append_of_pos (ne_dot_of_notMem h)]
  simp

theorem simple_of_notMem (h : '.' ∉ id) : simple id = id := by
  rw [simple, ← List.append_nil id.reverse, List.takeWhile_append_of_pos (ne_dot_of_notMem h)]
  simp

theorem uml_append (front last : List Char) : uml (front ++ last) = uml front ++ uml last :=
  List.flatMap_append

theorem uml_of_notMem (h : '.' ∉ id) : uml id = id := by
  induction id with
  | nil => rfl
  | cons c id ih =>
    rw [List.mem_cons, not_or] at h
    rw [uml, List.flatMap_cons, if_neg (Ne.symm h.1)]
    exact congrArg (c :: ·) (ih h.2)

theorem colons_prefix_iff {c : Char} : [':', ':'] <+: c :: text ↔ c = ':' ∧ text.head? = some ':' := by
  cases text <;> simp [List.cons_prefix_cons, @eq_comm _ ':']

/-- There is none exactly if there is no double colon. -/
theorem throughLastColons_eq_none_iff : throughLastColons text = none ↔ ¬ [':', ':'] <:+: text := by
  induction text with
  | nil => simp [throughLastColons]
  | cons c text ih =>
    rw [throughLastColons, List.infix_cons_iff, colons_prefix_iff]
    cases hlast : throughLastColons text with
    | some front =>
      have hin : [':', ':'] <:+: text := Classical.not_not.1 (mt ih.2 (by simp [hlast]))
      simp [hin]
    | none =>
      have hno : ¬ [':', ':'] <:+: text := ih.1 hlast
      simp [hno]

/-- It ends with a double colon that no other one follows or overlaps. -/
theorem throughLastColons_append (h : ¬ [':', ':'] <:+: ':' :: last) :
    throughLastColons (front ++ ':' :: ':' :: last) = some (front ++ [':', ':']) := by
  induction front with
  | nil =>
    rw [List.nil_append, throughLastColons, throughLastColons_eq_none_iff.2 h]
    rfl
  | cons c front ih => rw [List.cons_append, throughLastColons, ih, List.cons_append]

theorem no_colons_of_notMem (h : ':' ∉ last) : ¬ [':', ':'] <:+: ':' :: last := fun hin =>
  h (List.singleton_sublist.1 (List.cons_sublist_cons.1 hin.sublist))

/-- Each dot is replaced by a double colon. -/
theorem replaced_uml (id : List Char) : Replaced ['.'] [':', ':'] id (uml id) := by
  induction id with
  | nil => exact .nil
  | cons c id ih =>
    rw [uml, List.flatMap_cons]
    by_cases hc : c = '.'
    · rw [if_pos hc, hc]
      exact .found ih
    · rw [if_neg hc]
      refine .passed (fun hprefix => hc ?_) ih
      exact (List.cons_prefix_cons.1 hprefix).1.symm

/-- A scan for double colons meets them where the dots were, as pairs that do not run into one another. -/
theorem uml_replaced (h : ':' ∉ id) : Replaced [':', ':'] ['.'] (uml id) id := by
  induction id with
  | nil => exact .nil
  | cons c id ih =>
    rw [List.mem_cons, not_or] at h
    rw [uml, List.flatMap_cons]
    by_cases hc : c = '.'
    · rw [if_pos hc, hc]
      exact .found (ih h.2)
    · rw [if_neg hc]
      refine .passed (fun hprefix => h.1 ?_) (ih h.2)
      exact (List.cons_prefix_cons.1 hprefix).1

end QualifiedName

namespace ClassNode

open QualifiedName

variable {n : ClassNode}

theorem umlName_eq_replace (n : ClassNode) : n.umlName = n.id.replace "." "::" := by
  have hreplaced : Replaced ".".toList "::".toList n.id.toList n.umlName.toList := by
    simp only [umlName, ClassAtlas.umlName, String.toList_ofList]
    exact replaced_uml n.id.toList
  exact (replace_eq_of_replaced (by decide) hreplaced).symm

theorem replace_umlName (h : ':' ∉ n.id.toList) : n.umlName.replace "::" "." = n.id := by
  have hreplaced : Replaced "::".toList ".".toList n.umlName.toList n.id.toList := by
    simp only [umlName, ClassAtlas.umlName, String.toList_ofList]
    exact uml_replaced h
  exact replace_eq_of_replaced (by decide) hreplaced

/-- The name parted at its last double colon, which takes the place of the last dot of the id. -/
theorem parts_of_dot {front last : List Char} (hid : n.id.toList = front ++ '.' :: last) (hdot : '.' ∉ last)
    (hcolon : ':' ∉ last) : n.umlNamespace = some (String.ofList (uml front ++ [':', ':'])) ∧
      n.umlName = String.ofList (uml front ++ [':', ':']) ++ simpleName n.id := by
  have huml : uml n.id.toList = uml front ++ ':' :: ':' :: last := by
    rw [hid, uml_append]
    exact congrArg (fun rest => uml front ++ ':' :: ':' :: rest) (uml_of_notMem hdot)
  constructor
  · rw [umlNamespace, ClassAtlas.umlNamespace, huml, throughLastColons_append (no_colons_of_notMem hcolon)]
    rfl
  · rw [umlName, ClassAtlas.umlName, huml, simpleName, hid, simple_append hdot, ← String.ofList_append]
    simp

theorem parts_of_no_dot (hdot : '.' ∉ n.id.toList) (hcolon : ':' ∉ n.id.toList) :
    n.umlNamespace = none ∧ n.umlName = simpleName n.id := by
  have huml : uml n.id.toList = n.id.toList := uml_of_notMem hdot
  have hnone : ¬ [':', ':'] <:+: n.id.toList := fun hin => hcolon (hin.subset (List.mem_cons_self ..))
  constructor
  · rw [umlNamespace, ClassAtlas.umlNamespace, huml, throughLastColons_eq_none_iff.2 hnone]
    rfl
  · rw [umlName, ClassAtlas.umlName, huml, simpleName, simple_of_notMem hdot]

theorem umlName_parts (n : ClassNode) (h : ':' ∉ n.id.toList) :
    n.umlName = n.umlNamespace.getD "" ++ simpleName n.id ∧ (n.umlNamespace = none ↔ '.' ∉ n.id.toList) ∧
      n.umlName = n.id.replace "." "::" ∧ n.umlName.replace "::" "." = n.id := by
  by_cases hdot : '.' ∈ n.id.toList
  · obtain ⟨front, last, hid, hlast⟩ := exists_last_dot hdot
    have hcolon : ':' ∉ last := fun hmem => h (by simp [hid, hmem])
    obtain ⟨hnamespace, hname⟩ := parts_of_dot hid hlast hcolon
    refine ⟨by rw [hnamespace]; exact hname, ?_, umlName_eq_replace n, replace_umlName h⟩
    simp [hnamespace, hdot]
  · obtain ⟨hnamespace, hname⟩ := parts_of_no_dot hdot h
    refine ⟨?_, ?_, umlName_eq_replace n, replace_umlName h⟩
    · rw [hnamespace, Option.getD_none, String.empty_append, hname]
    · simp [hnamespace, hdot]

/-- Dots at either end and beside one another. -/
theorem umlName_parts_dotted :
    let n : ClassNode :=
      { handle := 0, element := { attributes := { id := "..a..B.", name := "", kind := .classType } } }
    ':' ∉ n.id.toList ∧ n.umlNamespace = some "::::a::::B::" ∧ simpleName n.id = "" ∧
      n.umlName = n.umlNamespace.getD "" ++ simpleName n.id ∧ (n.umlNamespace = none ↔ '.' ∉ n.id.toList) ∧
      n.umlName = n.id.replace "." "::" ∧ n.umlName.replace "::" "." = n.id := by
  intro n
  have h : ':' ∉ n.id.toList := by decide
  exact ⟨h, by decide +kernel, by decide +kernel, umlName_parts n h⟩

end ClassNode

end ClassAtlas
