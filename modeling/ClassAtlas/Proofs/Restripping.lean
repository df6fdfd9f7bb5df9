import ClassAtlas.Proofs.Qualifiers

/-! What stripping leaves. The qualifiers of a stripped text are the kept ones, each moved towards the front by what was
deleted before it (`occurs_strip`). One of them has lost the digit that it was kept for when a deleted qualifier began
with that digit (`followed_strip`), and just then a second stripping changes the text again
(`stripQualifiers_settles`). -/

namespace ClassAtlas

namespace Qualifier

/-- Where a character comes to stand when the deleted ones before it are gone. -/
def place (text : List Char) (i : Nat) : Nat := (List.range i).countP fun j => ¬ Deleted text j

/-- A deleted qualifier begins at the position. -/
def Breaks (text : List Char) (start : Nat) : Prop := ∃ dot, Occurs text start dot ∧ ¬ Followed text dot

/-- A qualifier that is kept for the digit after it, while this digit goes with the next qualifier. -/
def Stranded (text : List Char) (start dot : Nat) : Prop :=
  Occurs text start dot ∧ Followed text dot ∧ Breaks text (dot + 1)

/-- A digit follows every qualifier. -/
def Settled (text : List Char) : Prop := ∀ start dot, Occurs text start dot → Followed text dot

variable {w text rest : List Char} {c : Char} {i start dot : Nat}

section Runs

variable (hw : ∀ x ∈ w, isWordChar x = true) (hc : isWordChar c = false)

include hw hc

theorem place_after : place (w ++ c :: rest) (w.length + 1 + i) =
    place (w ++ c :: rest) (w.length + 1) + place rest i := by
  rw [place, List.range_add, List.countP_append, List.countP_map]
  congr 1
  refine List.countP_congr fun j _ => ?_
  simp only [Function.comp, deleted_after hw hc]

theorem place_of_drops (hd : Drops w c rest) : place (w ++ c :: rest) (w.length + 1) = 0 := by
  rw [place, List.countP_eq_zero]
  intro j hj
  have hle : j ≤ w.length := Nat.lt_succ_iff.1 (List.mem_range.1 hj)
  simp [(deleted_run hw hc).2 (Or.inl ⟨hle, hd⟩)]

theorem place_of_not_drops (hd : ¬ Drops w c rest) (hi : i ≤ w.length + 1) : place (w ++ c :: rest) i = i := by
  rw [place, List.countP_eq_length.2, List.length_range]
  intro j hj
  have hlt := List.mem_range.1 hj
  suffices ¬ Deleted (w ++ c :: rest) j by simp [this]
  rw [deleted_run hw hc]
  rintro (⟨-, hdrops⟩ | ⟨k, -, rfl⟩)
  · exact hd hdrops
  · omega

theorem breaks_after : Breaks (w ++ c :: rest) (w.length + 1 + i) ↔ Breaks rest i := by
  constructor
  · rintro ⟨dot, h, hnot⟩
    rcases (occurs_run hw hc).1 h with ⟨hzero, -⟩ | ⟨s, d, h, hs, rfl⟩
    · omega
    · obtain rfl : i = s := Nat.add_left_cancel hs
      exact ⟨d, h, mt followed_after.2 hnot⟩
  · rintro ⟨d, h, hnot⟩
    exact ⟨_, (occurs_after hc).2 h, mt followed_after.1 hnot⟩

theorem breaks_zero : Breaks (w ++ c :: rest) 0 ↔ Drops w c rest := by
  constructor
  · rintro ⟨dot, h, hnot⟩
    rcases (occurs_run hw hc).1 h with ⟨-, rfl, hne, hsep⟩ | ⟨s, d, -, hs, -⟩
    · exact ⟨hne, hsep, by simpa [followed_end] using hnot⟩
    · omega
  · rintro ⟨hne, hsep, hdigit⟩
    exact ⟨w.length, occurs_first hw hc hne hsep, by simp [followed_end, hdigit]⟩

end Runs

/-- A stripped text begins with a digit if the text does and keeps it. -/
theorem startsWithDigit_strip (text : List Char) :
    startsWithDigit (strip text) = true ↔ startsWithDigit text = true ∧ ¬ Breaks text 0 := by
  induction text using run_induction with
  | word w hw =>
    have hnone : ¬ Breaks w 0 := fun ⟨_, h, _⟩ => not_occurs_word hw h
    simp [strip_word hw, hnone]
  | run w c rest hw hc ih =>
    rw [breaks_zero hw hc]
    by_cases hd : Drops w c rest
    · simp [strip_run_of_drops hw hc hd, ih, hd, hd.2.2]
    · have hsame : startsWithDigit (w ++ c :: strip rest) = startsWithDigit (w ++ c :: rest) := by cases w <;> rfl
      simp [strip_run_of_not_drops hw hc hd, hsame, hd]

/-- The qualifiers of a stripped text are the kept ones. -/
theorem occurs_strip (text : List Char) : Occurs (strip text) start dot ↔
    ∃ s d, Occurs text s d ∧ Followed text d ∧ start = place text s ∧ dot = place text d := by
  induction text using run_induction generalizing start dot with
  | word w hw =>
    rw [strip_word hw]
    exact ⟨fun h => absurd h (not_occurs_word hw), fun ⟨_, _, h, _⟩ => absurd h (not_occurs_word hw)⟩
  | run w c rest hw hc ih =>
    by_cases hd : Drops w c rest
    · have hplace (i : Nat) : place (w ++ c :: rest) (w.length + 1 + i) = place rest i := by
        rw [place_after hw hc, place_of_drops hw hc hd, Nat.zero_add]
      rw [strip_run_of_drops hw hc hd, ih]
      constructor
      · rintro ⟨s, d, h, hf, rfl, rfl⟩
        exact ⟨_, _, (occurs_after hc).2 h, followed_after.2 hf, (hplace s).symm,
          (hplace d).symm⟩
      · rintro ⟨_, _, h, hf, rfl, rfl⟩
        rcases (occurs_run hw hc).1 h with ⟨-, rfl, -⟩ | ⟨s, d, h', rfl, rfl⟩
        · exact absurd (followed_end.1 hf) (by simp [hd.2.2])
        · exact ⟨s, d, h', followed_after.1 hf, hplace s, hplace d⟩
    · have hplace (i : Nat) : place (w ++ c :: rest) (w.length + 1 + i) = w.length + 1 + place rest i := by
        rw [place_after hw hc, place_of_not_drops hw hc hd (Nat.le_refl _)]
      have hfirst {i : Nat} (hi : i ≤ w.length) : place (w ++ c :: rest) i = i :=
        place_of_not_drops hw hc hd (Nat.le_succ_of_le hi)
      rw [strip_run_of_not_drops hw hc hd, occurs_run hw hc]
      constructor
      · rintro (⟨rfl, rfl, hne, hsep⟩ | ⟨s', d', h', rfl, rfl⟩)
        · have hdigit : startsWithDigit rest = true := by simpa [Drops, hne, hsep] using hd
          exact ⟨0, w.length, occurs_first hw hc hne hsep, followed_end.2 hdigit,
            (hfirst (Nat.zero_le _)).symm, (hfirst (Nat.le_refl _)).symm⟩
        · obtain ⟨s, d, h, hf, rfl, rfl⟩ := ih.1 h'
          exact ⟨_, _, (occurs_after hc).2 h, followed_after.2 hf, (hplace s).symm,
            (hplace d).symm⟩
      · rintro ⟨_, _, h, hf, rfl, rfl⟩
        rcases (occurs_run hw hc).1 h with ⟨rfl, rfl, hne, hsep⟩ | ⟨s, d, h', rfl, rfl⟩
        · exact Or.inl ⟨hfirst (Nat.zero_le _), hfirst (Nat.le_refl _), hne, hsep⟩
        · exact Or.inr ⟨_, _, ih.2 ⟨s, d, h', followed_after.1 hf, rfl, rfl⟩, hplace s, hplace d⟩

/-- A kept qualifier loses its digit to a deleted one that begins with it, and in no other way. -/
theorem followed_strip (text : List Char) (h : Occurs text start dot) (hf : Followed text dot) :
    Followed (strip text) (place text dot) ↔ ¬ Breaks text (dot + 1) := by
  induction text using run_induction generalizing start dot with
  | word w hw => exact absurd h (not_occurs_word hw)
  | run w c rest hw hc ih =>
    rcases (occurs_run hw hc).1 h with ⟨-, rfl, -⟩ | ⟨s, d, h', -, rfl⟩
    · have hdigit := followed_end.1 hf
      have hd : ¬ Drops w c rest := fun hd => by simp [hd.2.2] at hdigit
      have hbreaks : Breaks (w ++ c :: rest) (w.length + 1) ↔ Breaks rest 0 := breaks_after hw hc (i := 0)
      rw [strip_run_of_not_drops hw hc hd, place_of_not_drops hw hc hd (Nat.le_succ _), followed_end,
        startsWithDigit_strip, hbreaks]
      exact and_iff_right hdigit
    · have hbreaks : Breaks (w ++ c :: rest) (w.length + 1 + d + 1) ↔ Breaks rest (d + 1) :=
        breaks_after hw hc (i := d + 1)
      rw [hbreaks, ← ih h' (followed_after.1 hf), place_after hw hc]
      by_cases hd : Drops w c rest
      · rw [strip_run_of_drops hw hc hd, place_of_drops hw hc hd, Nat.zero_add]
      · rw [strip_run_of_not_drops hw hc hd, place_of_not_drops hw hc hd (Nat.le_refl _)]
        exact followed_after

theorem settled_run (hw : ∀ x ∈ w, isWordChar x = true) (hc : isWordChar c = false) :
    Settled (w ++ c :: rest) ↔ ¬ Drops w c rest ∧ Settled rest := by
  constructor
  · refine fun hsettled => ⟨fun hd => ?_, fun s d h => ?_⟩
    · obtain ⟨dot, h, hnot⟩ := (breaks_zero hw hc).2 hd
      exact hnot (hsettled _ _ h)
    · exact followed_after.1 (hsettled _ _ ((occurs_after hc).2 h))
  · rintro ⟨hd, hsettled⟩ start dot h
    rcases (occurs_run hw hc).1 h with ⟨-, rfl, hne, hsep⟩ | ⟨s, d, h', -, rfl⟩
    · exact followed_end.2 (by simpa [Drops, hne, hsep] using hd)
    · exact followed_after.2 (hsettled s d h')

/-- Stripping changes nothing just where a digit follows every qualifier. -/
theorem strip_eq_self_iff (text : List Char) : strip text = text ↔ Settled text := by
  induction text using run_induction with
  | word w hw => exact iff_of_true (strip_word hw) fun _ _ h => absurd h (not_occurs_word hw)
  | run w c rest hw hc ih =>
    rw [settled_run hw hc]
    by_cases hd : Drops w c rest
    · refine iff_of_false (fun hself => ?_) fun h => h.1 hd
      rw [strip_run_of_drops hw hc hd] at hself
      have hle := (strip_sublist rest).length_le
      rw [hself, List.length_append, List.length_cons] at hle
      omega
    · rw [strip_run_of_not_drops hw hc hd, List.append_cancel_left_eq, List.cons_inj_right, ih]
      exact (and_iff_right hd).symm

theorem settled_strip_iff (text : List Char) : Settled (strip text) ↔ ∀ s d, ¬ Stranded text s d := by
  constructor
  · rintro hsettled s d ⟨h, hf, hbreaks⟩
    have hkept := hsettled _ _ ((occurs_strip text).2 ⟨s, d, h, hf, rfl, rfl⟩)
    exact (followed_strip text h hf).1 hkept hbreaks
  · intro hnone start dot hplaced
    obtain ⟨s, d, h, hf, rfl, rfl⟩ := (occurs_strip text).1 hplaced
    exact (followed_strip text h hf).2 fun hbreaks => hnone s d ⟨h, hf, hbreaks⟩

end Qualifier

open Qualifier

/-- What is left of a text has the kept qualifiers, with a digit after them unless they are stranded; and where one is
stranded, and only there, it is not yet stripped for good. -/
theorem stripQualifiers_settles (text : String) :
    (∀ start dot, Occurs (stripQualifiers text).toList start dot ↔
      ∃ s d, Occurs text.toList s d ∧ Followed text.toList d ∧
        start = place text.toList s ∧ dot = place text.toList d) ∧
    (∀ s d, Occurs text.toList s d → Followed text.toList d →
      (Followed (stripQualifiers text).toList (place text.toList d) ↔ ¬ Breaks text.toList (d + 1))) ∧
    (Settled (stripQualifiers text).toList ↔ ∀ s d, ¬ Stranded text.toList s d) ∧
    (stripQualifiers (stripQualifiers text) = stripQualifiers text ↔ ∀ s d, ¬ Stranded text.toList s d) := by
  have hsettled := settled_strip_iff text.toList
  refine ⟨fun start dot => ?_, fun s d h hf => ?_, ?_, ?_⟩
  · rw [toList_stripQualifiers]
    exact occurs_strip _
  · rw [toList_stripQualifiers]
    exact followed_strip _ h hf
  · rw [toList_stripQualifiers]
    exact hsettled
  · rw [← hsettled, ← String.toList_inj, toList_stripQualifiers (stripQualifiers text), toList_stripQualifiers]
    exact strip_eq_self_iff _

/-- The name of a class within an anonymous class is cut down to that of a class that does not exist. The qualifier
that is left has no digit after it, and goes when the name is stripped again. -/
theorem not_settled_inAnonymous :
    stripQualifiers "com.acme.Outer$1$Inner" = "Outer$Inner" ∧
      ¬ Settled (stripQualifiers "com.acme.Outer$1$Inner").toList ∧
      stripQualifiers (stripQualifiers "com.acme.Outer$1$Inner") = "Inner" := by
  have hshort : stripQualifiers "com.acme.Outer$1$Inner" = "Outer$Inner" := by decide +kernel
  rw [hshort]
  refine ⟨rfl, fun hsettled => ?_, by decide +kernel⟩
  have hfollowed := hsettled 0 5 (by decide +kernel)
  revert hfollowed
  decide +kernel

/-- Of two qualifiers that are kept, the first is stranded. -/
theorem stripQualifiers_settles_strandedOnce :
    let text := "p.Outer$1$Inner, Outer$2"
    Stranded text.toList 2 7 ∧ ¬ Followed (stripQualifiers text).toList 5 ∧
      Occurs text.toList 17 22 ∧ Followed text.toList 22 ∧ ¬ Breaks text.toList 23 ∧
      Occurs (stripQualifiers text).toList 13 18 ∧ ¬ Settled (stripQualifiers text).toList ∧
      stripQualifiers (stripQualifiers text) ≠ stripQualifiers text := by
  intro text
  obtain ⟨hoccurs, hfollowed, hsettled, hagain⟩ := stripQualifiers_settles text
  have inner : Occurs text.toList 2 7 ∧ Followed text.toList 7 := by decide +kernel
  have numbered : Occurs text.toList 8 9 ∧ ¬ Followed text.toList 9 := by decide +kernel
  have last : Occurs text.toList 17 22 ∧ Followed text.toList 22 := by decide +kernel
  have moved : place text.toList 7 = 5 ∧ place text.toList 17 = 13 ∧ place text.toList 22 = 18 := by decide +kernel
  have digit : Followed (stripQualifiers text).toList 18 := by decide +kernel
  have stranded : Stranded text.toList 2 7 := ⟨inner.1, inner.2, 9, numbered⟩
  refine ⟨stranded, ?_, last.1, last.2, ?_, ?_, fun h => hsettled.1 h 2 7 stranded, fun h => hagain.1 h 2 7 stranded⟩
  · rw [← moved.1, hfollowed 2 7 inner.1 inner.2, not_not]
    exact stranded.2.2
  · rw [← hfollowed 17 22 last.1 last.2, moved.2.2]
    exact digit
  · exact (hoccurs 13 18).2 ⟨17, 22, last.1, last.2, moved.2.1.symm, moved.2.2.symm⟩

end ClassAtlas
