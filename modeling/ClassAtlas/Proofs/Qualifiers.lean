import ClassAtlas.Text.Qualifier
import Mathlib.Data.List.TakeWhile

/-! Where the qualifiers of a text stand, told by positions alone, and that stripping deletes exactly those that no
digit follows (`stripQualifiers_deletes`). A text is read run by run (`run_induction`): a run of word characters with
the character that ends it stands before a text of its own, and the qualifiers are those of that text, moved on, and
the run itself if a separator ends it (`occurs_run`). -/

namespace ClassAtlas

theorem isWordChar_of_isDigit {c : Char} (h : c.isDigit = true) : isWordChar c = true := by
  simp only [Char.isDigit, Bool.and_eq_true, decide_eq_true_eq] at h
  have hlow : ¬ c.toNat < 0x30 := Nat.not_lt.2 h.1
  have hhigh : c.toNat ≤ 0x39 := h.2
  rw [isWordChar, wordRanges, inRanges, if_neg hlow, decide_eq_true hhigh, Bool.true_or]

theorem not_isWordChar_of_isSeparator {c : Char} (h : isSeparator c = true) : isWordChar c = false := by
  simp only [isSeparator, Bool.or_eq_true, decide_eq_true_eq] at h
  rcases h with rfl | rfl <;> decide

/-- The text has a character at the position, and it is one of these. -/
def CharAt (p : Char → Bool) (text : List Char) (i : Nat) : Prop := text[i]?.any p = true

/-- The characters of a text at chosen positions, in order. -/
def charsAt (chosen : Nat → Bool) (text : List Char) : List Char :=
  (text.zipIdx.filter fun (_, i) => chosen i).map (·.1)

section Positions

variable {w text rest : List Char} {c : Char} {p q : Char → Bool} {i : Nat}

instance : Decidable (CharAt p text i) := inferInstanceAs (Decidable (_ = _))

theorem charAt_iff : CharAt p text i ↔ ∃ c, text[i]? = some c ∧ p c = true := Option.any_eq_true ..

theorem CharAt.lt_length (h : CharAt p text i) : i < text.length := by
  obtain ⟨c, hc, -⟩ := charAt_iff.1 h
  exact (List.getElem?_eq_some_iff.1 hc).1

theorem CharAt.imp (hpq : ∀ c, p c = true → q c = true) (h : CharAt p text i) : CharAt q text i := by
  obtain ⟨c, hc, hp⟩ := charAt_iff.1 h
  exact charAt_iff.2 ⟨c, hc, hpq c hp⟩

/-- A position with a separator has no word character. -/
theorem CharAt.not_word (h : CharAt isSeparator text i) : ¬ CharAt isWordChar text i := by
  intro hword
  obtain ⟨c, hc, hsep⟩ := charAt_iff.1 h
  obtain ⟨d, hd, hdw⟩ := charAt_iff.1 hword
  obtain rfl := Option.some.inj (hc.symm.trans hd)
  rw [not_isWordChar_of_isSeparator hsep] at hdw
  cases hdw

theorem charAt_all (h : ∀ x ∈ w, p x = true) (hi : i < w.length) : CharAt p (w ++ rest) i := by
  refine charAt_iff.2 ⟨w[i], ?_, h _ (List.getElem_mem hi)⟩
  rw [List.getElem?_append_left hi, List.getElem?_eq_getElem hi]

theorem charAt_end : CharAt p (w ++ c :: rest) w.length ↔ p c = true := by
  simp [CharAt]

theorem charAt_after : CharAt p (w ++ c :: rest) (w.length + 1 + i) ↔ CharAt p rest i := by
  rw [CharAt, List.getElem?_append_right (by omega), CharAt]
  simp [show w.length + 1 + i - w.length = i + 1 by omega]

theorem startsWithDigit_iff : startsWithDigit text = true ↔ CharAt Char.isDigit text 0 := by
  cases text with
  | nil => simp [startsWithDigit, CharAt]
  | cons c text => simp [startsWithDigit, CharAt]

variable {chosen other : Nat → Bool}

theorem charsAt_append (chosen : Nat → Bool) (front rest : List Char) :
    charsAt chosen (front ++ rest) = charsAt chosen front ++ charsAt (fun i => chosen (front.length + i)) rest := by
  have hrest : rest.zipIdx (0 + front.length) = rest.zipIdx.map fun (c, i) => (c, front.length + i) := by
    rw [Nat.zero_add]
    exact List.zipIdx_eq_map_add
  simp only [charsAt, List.zipIdx_append, List.filter_append, List.map_append, hrest, List.filter_map, List.map_map]
  rfl

theorem charsAt_sublist (chosen : Nat → Bool) (text : List Char) : (charsAt chosen text).Sublist text := by
  have h := (List.filter_sublist (l := text.zipIdx) (p := fun (_, i) => chosen i)).map Prod.fst
  rwa [List.zipIdx_map_fst] at h

theorem charsAt_all (h : ∀ i < text.length, chosen i = true) : charsAt chosen text = text := by
  rw [charsAt, List.filter_eq_self.2, List.zipIdx_map_fst]
  intro x hx
  exact h x.2 (List.snd_lt_of_mem_zipIdx hx)

theorem charsAt_none (h : ∀ i < text.length, chosen i = false) : charsAt chosen text = [] := by
  rw [charsAt, List.filter_eq_nil_iff.2, List.map_nil]
  intro x hx
  simp [h x.2 (List.snd_lt_of_mem_zipIdx hx)]

end Positions

namespace Qualifier

/-- A whole run of word characters, from `start` up to `stop`. -/
structure Run (text : List Char) (start stop : Nat) : Prop where
  nonempty : start < stop
  word : ∀ i < stop, start ≤ i → CharAt isWordChar text i
  left : start = 0 ∨ ¬ CharAt isWordChar text (start - 1)
  right : ¬ CharAt isWordChar text stop

/-- A qualifier: a whole run of word characters and the separator right after it. -/
structure Occurs (text : List Char) (start dot : Nat) : Prop extends Run text start dot where
  separator : CharAt isSeparator text dot

/-- An ASCII digit comes right after a position. -/
def Followed (text : List Char) (dot : Nat) : Prop := CharAt Char.isDigit text (dot + 1)

/-- A position within a qualifier that no digit follows. -/
def Deleted (text : List Char) (i : Nat) : Prop :=
  ∃ dot < text.length, ∃ start < dot, Occurs text start dot ∧ ¬ Followed text dot ∧ start ≤ i ∧ i ≤ dot

section Decidable

variable (text : List Char) (start stop i : Nat)

instance : Decidable (Followed text i) := inferInstanceAs (Decidable (CharAt ..))

instance : Decidable (Run text start stop) :=
  decidable_of_iff (start < stop ∧ (∀ i < stop, start ≤ i → CharAt isWordChar text i) ∧
    (start = 0 ∨ ¬ CharAt isWordChar text (start - 1)) ∧ ¬ CharAt isWordChar text stop)
    ⟨fun ⟨h₁, h₂, h₃, h₄⟩ => ⟨h₁, h₂, h₃, h₄⟩, fun ⟨h₁, h₂, h₃, h₄⟩ => ⟨h₁, h₂, h₃, h₄⟩⟩

instance : Decidable (Occurs text start stop) :=
  decidable_of_iff (Run text start stop ∧ CharAt isSeparator text stop)
    ⟨fun ⟨h₁, h₂⟩ => ⟨h₁, h₂⟩, fun ⟨h₁, h₂⟩ => ⟨h₁, h₂⟩⟩

instance : Decidable (Deleted text i) := by unfold Deleted; infer_instance

end Decidable

/-- The characters that belong to no deleted qualifier, in order. -/
def remaining (text : List Char) : List Char := charsAt (fun i => ¬ Deleted text i) text

variable {w text rest : List Char} {c : Char} {i start dot start' dot' : Nat}

theorem deleted_iff : Deleted text i ↔
    ∃ start dot, Occurs text start dot ∧ ¬ Followed text dot ∧ start ≤ i ∧ i ≤ dot := by
  constructor
  · rintro ⟨dot, -, start, -, h⟩
    exact ⟨start, dot, h⟩
  · rintro ⟨start, dot, h⟩
    exact ⟨dot, h.1.separator.lt_length, start, h.1.nonempty, h⟩

/-- The separator of a qualifier is not within the run of another. -/
theorem Occurs.dot_le (h : Occurs text start dot) (h' : Occurs text start' dot') (hmeet : start' ≤ dot) :
    dot' ≤ dot := by
  by_contra hlt
  exact h.separator.not_word (h'.word dot (Nat.not_le.1 hlt) hmeet)

theorem Occurs.start_le (h : Occurs text start dot) (h' : Occurs text start' dot) : start ≤ start' := by
  by_contra hlt
  have hnonempty := h.nonempty
  exact h.left.resolve_left (by omega) (h'.word (start - 1) (by omega) (by omega))

/-- Two qualifiers are the same or stand apart. -/
theorem Occurs.disjoint (h : Occurs text start dot) (h' : Occurs text start' dot') :
    (start = start' ∧ dot = dot') ∨ dot < start' ∨ dot' < start := by
  by_cases hmeet : start' ≤ dot ∧ start ≤ dot'
  · obtain rfl : dot = dot' := Nat.le_antisymm (h'.dot_le h hmeet.2) (h.dot_le h' hmeet.1)
    exact Or.inl ⟨Nat.le_antisymm (h.start_le h') (h'.start_le h), rfl⟩
  · omega

/-- What holds of runs of word characters, and of a text whenever it holds of what comes after the first character
that ends a run, holds of every text. -/
theorem run_induction {P : List Char → Prop} (word : ∀ w, (∀ x ∈ w, isWordChar x = true) → P w)
    (run : ∀ w c rest, (∀ x ∈ w, isWordChar x = true) → isWordChar c = false → P rest → P (w ++ c :: rest))
    (text : List Char) : P text := by
  induction hn : text.length using Nat.strongRecOn generalizing text with
  | _ n ih =>
    have hw : ∀ x ∈ text.takeWhile isWordChar, isWordChar x = true := fun x hx => List.mem_takeWhile_imp hx
    have hsplit := List.takeWhile_append_dropWhile (p := isWordChar) (l := text)
    cases hrest : text.dropWhile isWordChar with
    | nil =>
      rw [hrest, List.append_nil] at hsplit
      exact hsplit ▸ word _ hw
    | cons c rest =>
      rw [hrest] at hsplit
      have hc : isWordChar c = false := by
        have := List.head?_dropWhile_not isWordChar text
        simpa [hrest] using this
      have hlt : rest.length < n := by
        rw [← hn, ← hsplit]
        simp only [List.length_append, List.length_cons]
        omega
      exact hsplit ▸ run _ c rest hw hc (ih _ hlt rest rfl)

theorem stripFrom_append (hw : ∀ x ∈ w, isWordChar x = true) (v : List Char) :
    stripFrom v (w ++ rest) = stripFrom (v ++ w) rest := by
  induction w generalizing v with
  | nil => rw [List.nil_append, List.append_nil]
  | cons x w ih =>
    rw [List.cons_append, stripFrom, if_pos (hw x (List.mem_cons_self ..)),
      ih (fun y hy => hw y (List.mem_cons_of_mem _ hy)), List.append_assoc, List.singleton_append]

theorem followed_end : Followed (w ++ c :: rest) w.length ↔ startsWithDigit rest = true :=
  (charAt_after (i := 0)).trans startsWithDigit_iff.symm

theorem followed_after : Followed (w ++ c :: rest) (w.length + 1 + i) ↔ Followed rest i := charAt_after (i := i + 1)

theorem not_word_end (hc : isWordChar c = false) : ¬ CharAt isWordChar (w ++ c :: rest) w.length := by
  rw [charAt_end, hc]
  exact Bool.false_ne_true

/-- Where a run of word characters has ended, the qualifiers are those of what comes next. -/
theorem occurs_after (hc : isWordChar c = false) :
    Occurs (w ++ c :: rest) (w.length + 1 + start) (w.length + 1 + dot) ↔ Occurs rest start dot := by
  -- the character before the start is one of `rest`, or the one that ends the run
  have hleft : (w.length + 1 + start = 0 ∨ ¬ CharAt isWordChar (w ++ c :: rest) (w.length + 1 + start - 1)) ↔
      (start = 0 ∨ ¬ CharAt isWordChar rest (start - 1)) := by
    cases start with
    | zero => exact iff_of_true (Or.inr (not_word_end hc)) (Or.inl rfl)
    | succ s => simpa using not_congr (charAt_after (i := s))
  constructor
  · intro h
    refine ⟨⟨Nat.lt_of_add_lt_add_left h.nonempty, fun i hi hs => ?_, hleft.1 h.left, ?_⟩, charAt_after.1 h.separator⟩
    · exact charAt_after.1 (h.word _ (Nat.add_lt_add_left hi _) (Nat.add_le_add_left hs _))
    · exact fun hright => h.right (charAt_after.2 hright)
  · intro h
    refine ⟨⟨Nat.add_lt_add_left h.nonempty _, fun i hi hs => ?_, hleft.2 h.left, ?_⟩, charAt_after.2 h.separator⟩
    · obtain ⟨j, rfl⟩ := Nat.exists_eq_add_of_le (Nat.le_trans (Nat.le_add_right _ start) hs)
      exact charAt_after.2 (h.word j (Nat.lt_of_add_lt_add_left hi) (Nat.le_of_add_le_add_left hs))
    · exact fun hright => h.right (charAt_after.1 hright)

/-- The run `w`, ended by `c`, is a qualifier that no digit follows. -/
def Drops (w : List Char) (c : Char) (rest : List Char) : Prop :=
  w ≠ [] ∧ isSeparator c = true ∧ startsWithDigit rest = false

section Runs

variable (hw : ∀ x ∈ w, isWordChar x = true)

include hw

theorem not_occurs_word : ¬ Occurs w start dot := by
  intro h
  have hword : CharAt isWordChar (w ++ []) dot := charAt_all hw h.separator.lt_length
  rw [List.append_nil] at hword
  exact h.right hword

theorem not_deleted_word : ¬ Deleted w i := by
  rintro ⟨dot, -, start, -, h, -⟩
  exact not_occurs_word hw h

section Ended

variable (hc : isWordChar c = false)

include hc

theorem occurs_first (hne : w ≠ []) (hsep : isSeparator c = true) : Occurs (w ++ c :: rest) 0 w.length where
  nonempty := List.length_pos_iff.2 hne
  word _ hi _ := charAt_all hw hi
  left := Or.inl rfl
  right := not_word_end hc
  separator := charAt_end.2 hsep

theorem occurs_run : Occurs (w ++ c :: rest) start dot ↔
    (start = 0 ∧ dot = w.length ∧ w ≠ [] ∧ isSeparator c = true) ∨
      ∃ s d, Occurs rest s d ∧ start = w.length + 1 + s ∧ dot = w.length + 1 + d := by
  constructor
  · intro h
    rcases Nat.lt_trichotomy dot w.length with hlt | rfl | hgt
    · exact absurd (charAt_all hw hlt) h.right
    · have hstart : start < w.length := h.nonempty
      have hzero : start = 0 := h.left.resolve_right fun hnot => hnot (charAt_all hw (by omega))
      exact Or.inl ⟨hzero, rfl, List.ne_nil_of_length_pos (Nat.zero_lt_of_lt hstart), charAt_end.1 h.separator⟩
    · -- the character that ends the run would be within the qualifier if this did not start behind it
      have hstart : w.length < start := by
        by_contra hle
        exact not_word_end hc (h.word _ hgt (Nat.not_lt.1 hle))
      obtain ⟨s, rfl⟩ := Nat.exists_eq_add_of_le (Nat.succ_le_of_lt hstart)
      obtain ⟨d, rfl⟩ := Nat.exists_eq_add_of_le (Nat.succ_le_of_lt hgt)
      exact Or.inr ⟨s, d, (occurs_after hc).1 h, rfl, rfl⟩
  · rintro (⟨rfl, rfl, hne, hsep⟩ | ⟨s, d, h, rfl, rfl⟩)
    · exact occurs_first hw hc hne hsep
    · exact (occurs_after hc).2 h

theorem deleted_run : Deleted (w ++ c :: rest) i ↔
    (i ≤ w.length ∧ Drops w c rest) ∨ ∃ j, Deleted rest j ∧ i = w.length + 1 + j := by
  rw [deleted_iff]
  constructor
  · rintro ⟨start, dot, h, hnot, hstart, hdot⟩
    rcases (occurs_run hw hc).1 h with ⟨rfl, rfl, hne, hsep⟩ | ⟨s, d, h', rfl, rfl⟩
    · exact Or.inl ⟨hdot, hne, hsep, by simpa [followed_end] using hnot⟩
    · obtain ⟨j, rfl⟩ := Nat.exists_eq_add_of_le (Nat.le_trans (Nat.le_add_right _ s) hstart)
      exact Or.inr ⟨j, deleted_iff.2 ⟨s, d, h', mt followed_after.2 hnot, by omega, by omega⟩, rfl⟩
  · rintro (⟨hi, hne, hsep, hnot⟩ | ⟨j, hj, rfl⟩)
    · exact ⟨0, w.length, occurs_first hw hc hne hsep, by simp [followed_end, hnot],
        Nat.zero_le _, hi⟩
    · obtain ⟨s, d, h, hnot, hs, hd⟩ := deleted_iff.1 hj
      exact ⟨_, _, (occurs_after hc).2 h, mt followed_after.1 hnot, by omega, by omega⟩

theorem deleted_after : Deleted (w ++ c :: rest) (w.length + 1 + i) ↔ Deleted rest i := by
  rw [deleted_run hw hc]
  constructor
  · rintro (⟨hi, -⟩ | ⟨j, hj, heq⟩)
    · omega
    · obtain rfl : i = j := Nat.add_left_cancel heq
      exact hj
  · exact fun hi => Or.inr ⟨i, hi, rfl⟩

theorem remaining_run : remaining (w ++ c :: rest) =
    charsAt (fun i => ¬ Deleted (w ++ c :: rest) i) (w ++ [c]) ++ remaining rest := by
  calc remaining (w ++ c :: rest)
      = charsAt (fun i => ¬ Deleted (w ++ c :: rest) i) ((w ++ [c]) ++ rest) := by
        rw [List.append_assoc, List.singleton_append, remaining]
    _ = charsAt (fun i => ¬ Deleted (w ++ c :: rest) i) (w ++ [c]) ++ remaining rest := by
        simp only [charsAt_append, List.length_append, List.length_singleton, deleted_after hw hc]
        rfl

theorem strip_run_of_drops (hd : Drops w c rest) : strip (w ++ c :: rest) = strip rest := by
  obtain ⟨hne, hsep, hdigit⟩ := hd
  rw [strip, stripFrom_append hw, List.nil_append, stripFrom, if_neg (by simp [hc]),
    if_pos (by simp [hne, hsep, hdigit])]
  rfl

theorem strip_run_of_not_drops (hd : ¬ Drops w c rest) : strip (w ++ c :: rest) = w ++ c :: strip rest := by
  rw [strip, stripFrom_append hw, List.nil_append, stripFrom, if_neg (by simp [hc]), if_neg]
  · rfl
  · simpa [Drops, and_comm, and_left_comm] using hd

end Ended

theorem strip_word : strip w = w := by
  have h : stripFrom [] (w ++ []) = stripFrom ([] ++ w) [] := stripFrom_append hw []
  rwa [List.append_nil, List.nil_append] at h

end Runs

theorem strip_eq_remaining (text : List Char) : strip text = remaining text := by
  induction text using run_induction with
  | word w hw => rw [strip_word hw, remaining, charsAt_all fun i _ => by simp [not_deleted_word hw]]
  | run w c rest hw hc ih =>
    rw [remaining_run hw hc]
    by_cases hd : Drops w c rest
    · rw [strip_run_of_drops hw hc hd, ih, charsAt_none, List.nil_append]
      intro i hi
      have hle : i ≤ w.length := by simpa [Nat.lt_succ_iff] using hi
      simp [(deleted_run hw hc).2 (Or.inl ⟨hle, hd⟩)]
    · rw [strip_run_of_not_drops hw hc hd, ih, charsAt_all, List.append_assoc, List.singleton_append]
      intro i hi
      have hle : i ≤ w.length := by simpa [Nat.lt_succ_iff] using hi
      suffices ¬ Deleted (w ++ c :: rest) i by simp [this]
      rw [deleted_run hw hc]
      rintro (⟨-, hdrops⟩ | ⟨j, -, rfl⟩)
      · exact hd hdrops
      · omega

theorem strip_sublist (text : List Char) : (strip text).Sublist text := by
  rw [strip_eq_remaining]
  exact charsAt_sublist _ text

/-- A character that is of no use to a qualifier parts the text: each side is stripped by itself. -/
theorem strip_parted {d : Char} (hword : isWordChar d = false) (hsep : isSeparator d = false) (front back : List Char) :
    strip (front ++ d :: back) = strip front ++ d :: strip back := by
  have hdigit : d.isDigit = false := by
    cases h : d.isDigit with
    | false => rfl
    | true => exact absurd (isWordChar_of_isDigit h) (by simp [hword])
  induction front using run_induction with
  | word w hw => rw [strip_run_of_not_drops hw hword (by simp [Drops, hsep]), strip_word hw]
  | run w c rest hw hc ih =>
    have hsame : Drops w c (rest ++ d :: back) ↔ Drops w c rest := by
      cases rest with
      | nil => simp [Drops, startsWithDigit, hdigit]
      | cons => rfl
    rw [List.append_assoc, List.cons_append]
    by_cases hd : Drops w c rest
    · rw [strip_run_of_drops hw hc (hsame.2 hd), strip_run_of_drops hw hc hd, ih]
    · rw [strip_run_of_not_drops hw hc (mt hsame.1 hd), strip_run_of_not_drops hw hc hd, ih, List.append_assoc,
        List.cons_append]

end Qualifier

section Texts

open Qualifier

theorem toList_stripQualifiers (text : String) : (stripQualifiers text).toList = strip text.toList :=
  String.toList_ofList

theorem stripQualifiers_parted {d : Char} (hword : isWordChar d = false) (hsep : isSeparator d = false)
    (a b : String) : stripQualifiers (a ++ String.singleton d ++ b) =
      stripQualifiers a ++ String.singleton d ++ stripQualifiers b := by
  rw [← String.toList_inj]
  simp only [toList_stripQualifiers, String.toList_append, String.toList_singleton, List.append_assoc,
    List.singleton_append]
  exact strip_parted hword hsep _ _

/-- Qualifiers stand apart from each other; those that no digit follows are deleted, and all else is kept in order. At
any other character than those of words and separators the text may be cut and stripped in parts. -/
theorem stripQualifiers_deletes (text : String) :
    (∀ start dot start' dot', Occurs text.toList start dot → Occurs text.toList start' dot' →
      (start = start' ∧ dot = dot') ∨ dot < start' ∨ dot' < start) ∧
    (stripQualifiers text).toList = remaining text.toList ∧
    ∀ (a : String) (d : Char) (b : String), isWordChar d = false → isSeparator d = false →
      stripQualifiers (a ++ String.singleton d ++ b) =
        stripQualifiers a ++ String.singleton d ++ stripQualifiers b := by
  refine ⟨fun _ _ _ _ h h' => h.disjoint h', ?_, fun a d b hword hsep => stripQualifiers_parted hword hsep a b⟩
  rw [toList_stripQualifiers, strip_eq_remaining]

/-- Two qualifiers next to each other, of which the first is kept, and a separator without a word. -/
theorem stripQualifiers_deletes_adjacent :
    let text := "q.Map<p.Öuter$1$Inner, .V$>"
    Occurs text.toList 8 13 ∧ Occurs text.toList 14 15 ∧ ((8 = 14 ∧ 13 = 15) ∨ 13 < 14 ∨ 15 < 8) ∧
      remaining text.toList = "Map<Öuter$Inner, .>".toList ∧ stripQualifiers text = "Map<Öuter$Inner, .>" ∧
      stripQualifiers text = stripQualifiers "q.Map" ++ "<" ++ stripQualifiers "p.Öuter$1$Inner, .V$>" := by
  intro text
  have outer : Occurs text.toList 8 13 := by decide +kernel
  have numbered : Occurs text.toList 14 15 := by decide +kernel
  have kept : remaining text.toList = "Map<Öuter$Inner, .>".toList := by decide +kernel
  obtain ⟨hdisjoint, hremaining, hparted⟩ := stripQualifiers_deletes text
  refine ⟨outer, numbered, hdisjoint _ _ _ _ outer numbered, kept, ?_,
    hparted "q.Map" '<' "p.Öuter$1$Inner, .V$>" (by decide) (by decide)⟩
  rw [← String.toList_inj, hremaining, kept]

end Texts

end ClassAtlas
