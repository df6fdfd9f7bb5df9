import ClassAtlas.Proofs.WellFormed

/-! Finishing classes one after the other: classes that take members are finished without a refusal, and so are
classes whose members are finished once no class takes members any more. -/

namespace ClassAtlas

namespace ClassModel

variable {m m' : ClassModel} {h i : Handle} {hs : List Handle}

theorem classes_eq (m : ClassModel) : m.classes = (List.range m.size).map m.classAt := by
  refine List.ext_getElem? fun h => ?_
  rw [List.getElem?_map]
  rcases Nat.lt_or_ge h m.size with hh | hh
  · rw [getElem?_classes hh, List.getElem?_range hh, Option.map_some]
  · rw [List.getElem?_eq_none hh, List.getElem?_eq_none (by simpa using hh), Option.map_none]

/-- The handles of some classes are their places. -/
theorem handles_filter (hm : Closed m) (p : ClassNode → Bool) :
    (m.classes.filter p).map (·.handle) = (List.range m.size).filter fun h => p (m.classAt h) := by
  rw [classes_eq, List.filter_map, List.map_map]
  refine (List.map_congr_left fun h hh => ?_).trans (List.map_id _)
  exact hm.numbered h (List.mem_range.1 (List.mem_filter.1 hh).1)

theorem handles_eq_range (hm : Closed m) : m.handles = List.range m.size := by
  simpa [handles] using handles_filter hm fun _ => true

theorem handlesIn_eq (hm : WellFormed m) (state : Lifecycle) :
    m.handlesIn state = (List.range m.size).filter fun h => (m.classAt h).lifecycle = state :=
  handles_filter hm.toClosed _

theorem mem_handlesIn (hm : WellFormed m) {state : Lifecycle} :
    h ∈ m.handlesIn state ↔ h < m.size ∧ (m.classAt h).lifecycle = state := by
  simp [handlesIn_eq hm]

theorem nodup_handlesIn (hm : WellFormed m) (state : Lifecycle) : (m.handlesIn state).Nodup := by
  rw [handlesIn_eq hm]
  exact List.nodup_range.filter _

/-- The classes `hs` went to a state, and no other class went anywhere. -/
structure Finished (m m' : ClassModel) (hs : List Handle) (state : Lifecycle) : Prop where
  size : m'.size = m.size
  lifecycle : ∀ i, (m'.classAt i).lifecycle = if i ∈ hs then state else (m.classAt i).lifecycle

theorem finished_modify {f : ClassNode → ClassNode} {state : Lifecycle} (hh : h < m.size)
    (hf : ∀ n, (f n).lifecycle = state) : Finished m (m.modify h f) [h] state := by
  refine ⟨size_modify f, fun i => ?_⟩
  rw [classAt_modify hh]
  by_cases hi : i = h <;> simp [hi, hf]

/-- Classes in one state go to the next one after the other, if each step that finds its class there is carried
out; `P` is what the steps need, by the classes still to come. -/
theorem finishEach_ok {finish : ClassModel → Handle → Except Refusal ClassModel} {old new : Lifecycle}
    {P : ClassModel → List Handle → Prop}
    (hstep : ∀ m h hs, P m (h :: hs) → h < m.size → (m.classAt h).lifecycle = old →
      ∃ m1, finish m h = .ok m1 ∧ P m1 hs ∧ Finished m m1 [h] new)
    (hP : P m hs) (hnodup : hs.Nodup) (hall : ∀ h ∈ hs, h < m.size ∧ (m.classAt h).lifecycle = old) :
    ∃ m', m.finishEach finish hs = (m', none) ∧ P m' [] ∧ Finished m m' hs new := by
  induction hs generalizing m with
  | nil => exact ⟨m, rfl, hP, rfl, by simp⟩
  | cons h hs ih =>
    obtain ⟨hh, hold⟩ := hall h (List.mem_cons_self ..)
    rw [List.nodup_cons] at hnodup
    obtain ⟨m1, hfin, hP1, hsize, hlife⟩ := hstep m h hs hP hh hold
    have hrest : ∀ i ∈ hs, i < m1.size ∧ (m1.classAt i).lifecycle = old := by
      intro i hi
      have hne : i ∉ [h] := fun e => hnodup.1 (List.mem_singleton.1 e ▸ hi)
      rw [hsize, hlife, if_neg hne]
      exact hall i (List.mem_cons_of_mem h hi)
    obtain ⟨m', he, hP', hsize', hlife'⟩ := ih hP1 hnodup.2 hrest
    refine ⟨m', by rw [finishEach, hfin]; exact he, hP', hsize'.trans hsize, fun i => ?_⟩
    rw [hlife', hlife]
    by_cases hi : i = h <;> by_cases hi' : i ∈ hs <;> simp [hi, hi']

theorem finishEach_members (hpending : m.pending = hs.length) (hnodup : hs.Nodup)
    (hall : ∀ h ∈ hs, h < m.size ∧ (m.classAt h).lifecycle = .building) :
    ∃ m', m.finishEach finishMembers hs = (m', none) ∧ m'.pending = 0 ∧
      Finished m m' hs .membersFinalized := by
  refine finishEach_ok (P := fun m hs => m.pending = hs.length) (fun m h hs hp hh hb => ?_) hpending
    hnodup hall
  have hfin : Finished m (m.modify h fun n => n.finishMembers m.policy m.sortHandles) [h]
      .membersFinalized := finished_modify hh fun _ => rfl
  refine ⟨_, finishMembers_eq_ok_iff.2 ⟨hh, hb, rfl⟩, ?_, hfin.size, hfin.lifecycle⟩
  simp [hp]

theorem finishEach_relations (hpending : m.pending = 0) (hnodup : hs.Nodup)
    (hall : ∀ h ∈ hs, h < m.size ∧ (m.classAt h).lifecycle = .membersFinalized) :
    ∃ m', m.finishEach finishRelations hs = (m', none) ∧ m'.pending = 0 ∧
      Finished m m' hs .relationsFinalized :=
  finishEach_ok (P := fun m _ => m.pending = 0)
    (fun _ _ _ hp hh hb => ⟨_, finishRelations_eq_ok_iff.2 ⟨hh, hb, hp, rfl⟩, hp,
      finished_modify hh fun _ => rfl⟩) hpending hnodup hall

/-- All classes that take members are finished. -/
theorem finishAllMembers_spec (hm : WellFormed m) :
    ∃ m', m.finishAllMembers = (m', .ok (m.handlesIn .building).length) ∧ m'.pending = 0 ∧
      Finished m m' (m.handlesIn .building) .membersFinalized := by
  have hpending : m.pending = (m.handlesIn .building).length :=
    hm.pending.trans (length_handlesIn m .building).symm
  obtain ⟨m', he, hp, hfin⟩ := finishEach_members hpending (nodup_handlesIn hm .building)
    fun h hh => (mem_handlesIn hm).1 hh
  exact ⟨m', by simp [finishAllMembers, finishAllIn, he], hp, hfin⟩

/-- Where some class takes members the first class to finish is refused, so all are refused or there is none. -/
theorem finishAllRelations_cases (hm : WellFormed m) :
    ((m.pending = 0 ∨ m.handlesIn .membersFinalized = []) ∧
      ∃ m', m.finishAllRelations = (m', .ok (m.handlesIn .membersFinalized).length) ∧
        Finished m m' (m.handlesIn .membersFinalized) .relationsFinalized) ∨
    (m.pending ≠ 0 ∧ ∃ h hs, m.handlesIn .membersFinalized = h :: hs ∧
      m.finishAllRelations = (m, .error (.stillBuilding (m.classAt h).id m.pending))) := by
  have hall : ∀ h ∈ m.handlesIn .membersFinalized, h < m.size ∧ (m.classAt h).lifecycle = .membersFinalized :=
    fun h hh => (mem_handlesIn hm).1 hh
  by_cases hp : m.pending = 0
  · obtain ⟨m', he, -, hfin⟩ := finishEach_relations hp (nodup_handlesIn hm .membersFinalized) hall
    exact Or.inl ⟨Or.inl hp, m', by simp [finishAllRelations, finishAllIn, he], hfin⟩
  · unfold finishAllRelations finishAllIn
    cases hw : m.handlesIn .membersFinalized with
    | nil => exact Or.inl ⟨Or.inr rfl, m, rfl, rfl, by simp⟩
    | cons h hs =>
      obtain ⟨hh, hl⟩ := hall h (hw ▸ List.mem_cons_self ..)
      have hrefused : m.finishRelations h = .error (.stillBuilding (m.classAt h).id m.pending) := by
        rw [finishRelations, getElem?_classes hh]
        simp [hl, hp]
      refine Or.inr ⟨hp, h, hs, rfl, ?_⟩
      simp only [finishEach, hrefused]

end ClassModel

end ClassAtlas
