/-! Replacing a pattern in a text, told as a relation between the characters before and after (`Replaced`). A pattern
that is not empty leaves no choice (`Replaced.unique`), so the relation tells what `String.replace` gives
(`replace_eq_of_replaced`). -/

namespace ClassAtlas

/-- The second text is the first with the occurrences of a pattern replaced that a scan from the left meets: it goes on
behind an occurrence, and where there is none it passes one character. -/
inductive Replaced (pattern replacement : List Char) : List Char → List Char → Prop
  | nil : Replaced pattern replacement [] []
  | found {text result : List Char} (rest : Replaced pattern replacement text result) :
    Replaced pattern replacement (pattern ++ text) (replacement ++ result)
  | passed {c : Char} {text result : List Char} (other : ¬ pattern <+: c :: text)
    (rest : Replaced pattern replacement text result) : Replaced pattern replacement (c :: text) (c :: result)

namespace Replaced

variable {pattern replacement text result result' : List Char}

theorem unique (hne : pattern ≠ []) (h : Replaced pattern replacement text result)
    (h' : Replaced pattern replacement text result') : result = result' := by
  induction h generalizing result' with
  | nil =>
    generalize ht : ([] : List Char) = t at h'
    cases h' with
    | nil => rfl
    | found rest => exact absurd (List.append_eq_nil_iff.1 ht.symm).1 hne
    | passed other rest => cases ht
  | @found text result rest ih =>
    generalize ht : pattern ++ text = t at h'
    cases h' with
    | nil => exact absurd (List.append_eq_nil_iff.1 ht).1 hne
    | found rest' =>
      obtain rfl := List.append_cancel_left ht
      rw [ih rest']
    | passed other rest' => exact absurd ⟨text, ht⟩ other
  | @passed c text result other rest ih =>
    generalize ht : c :: text = t at h'
    cases h' with
    | nil => cases ht
    | found rest' => exact absurd (ht ▸ List.prefix_append _ _) other
    | passed other' rest' =>
      cases ht
      rw [ih rest']

/-- A part in which no occurrence starts is passed. -/
theorem pass (h : Replaced pattern replacement text result) (part : List Char)
    (hpart : ∀ front c back, part = front ++ c :: back → ¬ pattern <+: c :: back ++ text) :
    Replaced pattern replacement (part ++ text) (part ++ result) := by
  induction part with
  | nil => exact h
  | cons c part ih =>
    refine .passed (hpart [] c part rfl) (ih fun front c' back e => hpart (c :: front) c' back ?_)
    rw [e, List.cons_append]

end Replaced

section Search

open String.Slice.Pattern String.Slice.Pattern.Model

variable {pattern : String} {s : String.Slice}

/-- What a step of the search for a pattern adds to the text. -/
def replaceStep (replacement sofar : String) : SearchStep s → String
  | .matched _ _ => sofar ++ replacement
  | .rejected start stop => sofar ++ (s.slice! start stop).copy

theorem replace_eq_foldl (s pattern replacement : String) : s.replace pattern replacement =
    (ToForwardSearcher.toSearcher pattern s.toSlice).toList.foldl (replaceStep replacement) "" := by
  rw [Std.Iter.foldl_toList, String.replace, String.Slice.replace]
  congr 1
  funext sofar step
  cases step with
  | matched start stop => exact congrArg (sofar ++ ·) String.copy_toSlice
  | rejected start stop => rfl

/-- Nothing of the pattern starts in a part that the search rejects. -/
theorem not_prefix_of_rejected {start stop : s.Pos} {before part after : String}
    (hstart : start.Splits before (part ++ after)) (hstop : stop.Splits (before ++ part) after)
    (hno : ∀ pos, start ≤ pos → pos < stop → ¬ MatchesAt pattern pos) (front : List Char) (c : Char) (back : List Char)
    (hpart : part.toList = front ++ c :: back) : ¬ pattern.toList <+: c :: back ++ after.toList := by
  rintro ⟨rest, hrest⟩
  obtain rfl : part = String.ofList front ++ String.ofList (c :: back) := by
    rw [← String.ofList_append, ← hpart, String.ofList_toList]
  rw [String.append_assoc] at hstart
  have hpos := hstart.splits_rotateRight
  have hmatch : String.ofList (c :: back) ++ after = pattern ++ String.ofList rest := by
    apply String.toList_inj.1
    simpa using hrest.symm
  refine hno hstart.rotateRight ?_ ?_ ?_
  · exact (hstart.le_iff_exists_eq_append hpos).2 ⟨_, rfl, rfl⟩
  · exact (hpos.lt_iff_exists_eq_append hstop).2 ⟨_, by simp, (String.append_assoc ..).symm, rfl⟩
  · exact ForwardStringSearcher.matchesAt_iff_splits.2 ⟨_, _, hpos.of_eq rfl hmatch⟩

/-- The steps of a search from a position on replace the pattern in what stands behind the position. -/
theorem replaced_steps {pos : s.Pos} {steps : List (SearchStep s)} (hvalid : IsValidSearchFrom pattern pos steps)
    (replacement : String) {before after : String} (hpos : pos.Splits before after) (sofar : String) :
    ∃ result, (steps.foldl (replaceStep replacement) sofar).toList = sofar.toList ++ result ∧
      Replaced pattern.toList replacement.toList after.toList result := by
  induction hvalid generalizing before after sofar with
  | endPos =>
    obtain ⟨-, rfl⟩ := String.Slice.splits_endPos_iff.1 hpos
    exact ⟨[], (List.append_nil _).symm, .nil⟩
  | @matched steps start stop hmatch _ ih =>
    obtain ⟨front, back, hstart, hstop⟩ := ForwardStringSearcher.isLongestMatchAt_iff_splits.1 hmatch
    obtain ⟨rfl, rfl⟩ := hpos.eq hstart
    obtain ⟨result, hresult, hrest⟩ := ih hstop (sofar ++ replacement)
    refine ⟨replacement.toList ++ result, ?_, ?_⟩
    · rw [List.foldl_cons, replaceStep, hresult, String.toList_append, List.append_assoc]
    · rw [String.toList_append]
      exact .found hrest
  | @mismatched steps start stop hlt hno _ ih =>
    obtain ⟨part, -, hbefore, rfl⟩ := (hpos.lt_iff_exists_eq_append stop.splits).1 hlt
    have hstop := stop.splits
    rw [hbefore] at hstop
    obtain ⟨result, hresult, hrest⟩ := ih hstop (sofar ++ part)
    obtain ⟨_, hpart⟩ := String.Slice.copy_slice_eq_iff_splits.2 ⟨before, _, hpos, hstop⟩
    rw [String.Slice.slice_eq_slice!] at hpart
    refine ⟨part.toList ++ result, ?_, ?_⟩
    · rw [List.foldl_cons, replaceStep, hpart, hresult, String.toList_append, List.append_assoc]
    · rw [String.toList_append]
      exact hrest.pass part.toList (not_prefix_of_rejected hpos hstop hno)

theorem replaced_replace (hne : pattern ≠ "") (s replacement : String) :
    Replaced pattern.toList replacement.toList s.toList (s.replace pattern replacement).toList := by
  have hvalid := (ForwardStringSearcher.lawfulToForwardSearcherModel hne).isValidSearchFrom_toList s.toSlice
  obtain ⟨result, hresult, hr⟩ := replaced_steps hvalid replacement (String.Slice.splits_startPos _) ""
  rw [String.toList_empty, List.nil_append] at hresult
  rw [String.copy_toSlice] at hr
  rwa [replace_eq_foldl, hresult]

theorem replace_eq_of_replaced (hne : pattern ≠ "") {s replacement result : String}
    (h : Replaced pattern.toList replacement.toList s.toList result.toList) :
    s.replace pattern replacement = result := by
  have hne' : pattern.toList ≠ [] := by simpa using hne
  exact String.toList_inj.1 ((replaced_replace hne s replacement).unique hne' h)

end Search

end ClassAtlas
