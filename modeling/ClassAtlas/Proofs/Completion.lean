import ClassAtlas.Proofs.Persistence
import Mathlib.Data.List.Perm.Basic

/-! Finishing all classes in a state is all or nothing: what one of them is refused for they all are refused for, and
the first one is refused before anything changed (`run_allOrNothing`). The order of the classes makes no difference,
since two of them can be finished in either order: each looks at the elements of the others only, which stay, and
changes its own class and a common count (`run_finished_anyhow`). -/

namespace ClassAtlas

namespace ClassModel

variable {m m1 m' : ClassModel} {h i : Handle} {hs is : List Handle} {old new : Lifecycle}
  {finish : ClassModel → Handle → Except Refusal ClassModel}

/-- All classes in one state went to another one, and the other classes are as they were. -/
structure Advanced (m m' : ClassModel) (old new : Lifecycle) : Prop where
  size : m'.size = m.size
  lifecycle : ∀ h < m.size, (m.classAt h).lifecycle = old → (m'.classAt h).lifecycle = new
  others : ∀ h < m.size, (m.classAt h).lifecycle ≠ old → m'.classAt h = m.classAt h
  emptied : m'.inState old = 0

theorem Finished.advanced (hfin : Finished m (m.finishAllIn old finish).1 (m.handlesIn old) new) (hm : WellFormed m)
    (hmove : ∀ m h m', finish m h = .ok m' → Move m m' none ∧ ∀ i, i ≠ h → m'.classAt i = m.classAt i)
    (hne : new ≠ old) : Advanced m (m.finishAllIn old finish).1 old new := by
  have hothers := (finishEach_lasting hmove hm (nodup_handlesIn hm old)).2
  rw [← finishAllIn_fst] at hothers
  refine ⟨hfin.size, fun h hh hold => ?_, fun h hh hold => ?_, inState_eq_zero_iff.2 fun h hh => ?_⟩
  · rw [hfin.lifecycle, if_pos ((mem_handlesIn hm).2 ⟨hh, hold⟩)]
  · exact hothers h fun hin => hold ((mem_handlesIn hm).1 hin).2
  · rw [hfin.lifecycle]
    split
    · exact hne
    · rename_i hnot
      exact fun hold => hnot ((mem_handlesIn hm).2 ⟨hfin.size ▸ hh, hold⟩)

theorem finishAllMembers_advanced (hm : WellFormed m) : ∃ m', m.finishAllMembers = (m', .ok (m.inState .building)) ∧
    Advanced m m' .building .membersFinalized := by
  obtain ⟨m', he, -, hfin⟩ := finishAllMembers_spec hm
  obtain rfl : m.finishAllMembers.1 = m' := congrArg Prod.fst he
  exact ⟨_, length_handlesIn m .building ▸ he, hfin.advanced hm (fun _ _ _ => finishMembers_move) (by decide)⟩

/-- The class that is finished first is the one with the least handle. -/
theorem first_handlesIn (hm : WellFormed m) (hlist : m.handlesIn old = h :: hs) :
    h < m.size ∧ (m.classAt h).lifecycle = old ∧ ∀ i < h, (m.classAt i).lifecycle ≠ old := by
  obtain ⟨hh, hold⟩ := (mem_handlesIn hm).1 (hlist ▸ List.mem_cons_self ..)
  have hsorted : (m.handlesIn old).Pairwise (· < ·) := handlesIn_eq hm old ▸ List.pairwise_lt_range.filter _
  rw [hlist, List.pairwise_cons] at hsorted
  refine ⟨hh, hold, fun i hi hold' => ?_⟩
  have hin : i ∈ h :: hs := hlist ▸ (mem_handlesIn hm).2 ⟨Nat.lt_trans hi hh, hold'⟩
  rcases List.mem_cons.1 hin with rfl | hin
  · exact Nat.lt_irrefl i hi
  · exact Nat.lt_asymm hi (hsorted.1 i hin)

theorem finishAllRelations_advanced (hm : WellFormed m) :
    (¬(0 < m.inState .membersFinalized ∧ 0 < m.inState .building) ∧
      ∃ m', m.finishAllRelations = (m', .ok (m.inState .membersFinalized)) ∧
        Advanced m m' .membersFinalized .relationsFinalized) ∨
    (0 < m.inState .membersFinalized ∧ 0 < m.inState .building ∧
      ∃ h < m.size, (m.classAt h).lifecycle = .membersFinalized ∧
        (∀ i < h, (m.classAt i).lifecycle ≠ .membersFinalized) ∧
        m.finishAllRelations = (m, .error (.stillBuilding (m.classAt h).id (m.inState .building)))) := by
  have hpending : m.pending = m.inState .building := hm.pending
  have hwaiting := length_handlesIn m .membersFinalized
  rcases finishAllRelations_cases hm with ⟨hnone, m', he, hfin⟩ | ⟨hpos, h, hs, hlist, he⟩
  · left
    obtain rfl : m.finishAllRelations.1 = m' := congrArg Prod.fst he
    refine ⟨?_, _, hwaiting ▸ he, hfin.advanced hm (fun _ _ _ => finishRelations_move) (by decide)⟩
    rintro ⟨hsome, hbuilding⟩
    rcases hnone with hzero | hzero
    · omega
    · rw [hzero, List.length_nil] at hwaiting
      omega
  · right
    obtain ⟨hh, hold, hleast⟩ := first_handlesIn hm hlist
    rw [hlist, List.length_cons] at hwaiting
    exact ⟨by omega, by omega, h, hh, hold, hleast, hpending ▸ he⟩

/-- What finishing all classes in a state comes to. Relations are refused for the first class that waits for them. -/
structure AllOrNothing (m : ClassModel) : Prop where
  members : ∃ m', m.finishAllMembers = (m', .ok (m.inState .building)) ∧ Advanced m m' .building .membersFinalized
  refused_iff : (∃ reason, m.finishAllRelations.2 = .error reason) ↔
    0 < m.inState .membersFinalized ∧ 0 < m.inState .building
  refused : ∀ m' reason, m.finishAllRelations = (m', .error reason) → m' = m ∧
    ∃ h < m.size, (m.classAt h).lifecycle = .membersFinalized ∧
      (∀ i < h, (m.classAt i).lifecycle ≠ .membersFinalized) ∧
      reason = .stillBuilding (m.classAt h).id (m.inState .building)
  finished : ∀ m' count, m.finishAllRelations = (m', .ok count) → count = m.inState .membersFinalized ∧
    Advanced m m' .membersFinalized .relationsFinalized

/-- In any state of any run, also after violations. -/
theorem run_allOrNothing (policy : Policy) (ops : List Operation) : AllOrNothing ((empty policy).run ops).1 := by
  have hm := run_wellFormed policy ops
  generalize ((empty policy).run ops).1 = m at hm
  rcases finishAllRelations_advanced hm with ⟨hno, m1, he, hadvanced⟩ | ⟨hsome, hmore, h, hh, hold, hleast, he⟩
  · refine ⟨finishAllMembers_advanced hm, ?_, fun m' reason herr => ?_, fun m' count hok => ?_⟩
    · rw [he]
      simpa using hno
    · rw [he] at herr
      cases herr
    · rw [he] at hok
      cases hok
      exact ⟨rfl, hadvanced⟩
  · refine ⟨finishAllMembers_advanced hm, ?_, fun m' reason herr => ?_, fun m' count hok => ?_⟩
    · rw [he]
      exact ⟨fun _ => ⟨hsome, hmore⟩, fun _ => ⟨_, rfl⟩⟩
    · rw [he] at herr
      cases herr
      exact ⟨rfl, h, hh, hold, hleast, rfl⟩
    · rw [he] at hok
      cases hok

section Diamond

variable {ready : Nat → Prop} {count : Nat → Nat}
  {change : ClassNode → Policy → (List Handle → List Handle) → ClassNode}

/-- Finishing a class is a matter of its lifecycle and of the number of classes that take members. It changes the
class by what the model compares with, and counts. -/
structure Local (finish : ClassModel → Handle → Except Refusal ClassModel) (old : Lifecycle) (ready : Nat → Prop)
    (count : Nat → Nat) (change : ClassNode → Policy → (List Handle → List Handle) → ClassNode) : Prop where
  eq_ok_iff : ∀ {m h m'}, finish m h = .ok m' ↔ h < m.size ∧ (m.classAt h).lifecycle = old ∧ ready m.pending ∧
    m' = { m.modify h (fun n => change n m.policy m.sortHandles) with pending := count m.pending }
  element : ∀ n policy order, (change n policy order).element = n.element

theorem local_finishMembers : Local finishMembers .building (fun _ => True) (· - 1) ClassNode.finishMembers where
  eq_ok_iff := by simp [finishMembers_eq_ok_iff]
  element _ _ _ := rfl

theorem local_finishRelations :
    Local finishRelations .membersFinalized (· = 0) id fun n _ order => n.finishRelations order where
  eq_ok_iff := finishRelations_eq_ok_iff
  element _ _ _ := rfl

theorem modify_comm (hne : h ≠ i) (f g : ClassNode → ClassNode) :
    (m.modify h f).modify i g = (m.modify i g).modify h f := by
  unfold modify
  congr 1
  refine List.ext_getElem? fun k => ?_
  simp only [List.getElem?_modify]
  by_cases hk : h = k
  · subst hk
    simp [Ne.symm hne]
  · simp [hk]

theorem sortHandles_modify {f : ClassNode → ClassNode} (hf : ∀ n, (f n).element = n.element) :
    (m.modify h f).sortHandles = m.sortHandles := by
  refine sortHandles_congr rfl fun i => ?_
  rcases Nat.lt_or_ge h m.size with hh | hh
  · rw [classAt_modify hh]
    split
    · rename_i e
      rw [e, hf]
    · rfl
  · rw [modify, List.modify_eq_self hh]

/-- Neither of two classes notices whether the other one is finished. -/
theorem Local.comm (hl : Local finish old ready count change) (hne : h ≠ i) (h1 : finish m h = .ok m1)
    (h2 : finish m1 i = .ok m') : ∃ m2, finish m i = .ok m2 ∧ finish m2 h = .ok m' := by
  let f (n : ClassNode) : ClassNode := change n m.policy m.sortHandles
  have hsort (j : Handle) : (m.modify j f).sortHandles = m.sortHandles :=
    sortHandles_modify fun n => hl.element n m.policy m.sortHandles
  -- what finishing `k` asks and does after `j`, in terms of the model before both
  have hthen (j k : Handle) (hjk : k ≠ j) (hj : j < m.size) {m' : ClassModel} :
      finish { m.modify j f with pending := count m.pending } k = .ok m' ↔
        k < m.size ∧ (m.classAt k).lifecycle = old ∧ ready (count m.pending) ∧
          m' = { (m.modify j f).modify k f with pending := count (count m.pending) } := by
    have hlife : ((m.modify j f).classAt k).lifecycle = (m.classAt k).lifecycle := by
      rw [classAt_modify hj, if_neg hjk]
    have hiff : finish { m.modify j f with pending := count m.pending } k = .ok m' ↔ k < (m.modify j f).size ∧
        ((m.modify j f).classAt k).lifecycle = old ∧ ready (count m.pending) ∧
        m' = { (m.modify j f).modify k (fun n => change n m.policy (m.modify j f).sortHandles) with
          pending := count (count m.pending) } := hl.eq_ok_iff
    rw [hiff, size_modify, hlife, hsort]
  obtain ⟨hh, hold, hready, rfl⟩ := hl.eq_ok_iff.1 h1
  obtain ⟨hi, hold', hready', rfl⟩ := (hthen h i hne.symm hh).1 h2
  refine ⟨_, hl.eq_ok_iff.2 ⟨hi, hold', hready, rfl⟩, (hthen i h hne hi).2 ⟨hh, hold, hready', ?_⟩⟩
  rw [modify_comm hne]

theorem finishEach_cons_iff : m.finishEach finish (h :: hs) = (m', none) ↔
    ∃ m1, finish m h = .ok m1 ∧ m1.finishEach finish hs = (m', none) := by
  rw [finishEach]
  cases finish m h with
  | error r => simp
  | ok m1 => simp

/-- Classes that can be finished in one order can be finished in every other one, with the same outcome. -/
theorem finishEach_perm
    (hcomm : ∀ {m m1 m' h i}, h ≠ i → finish m h = .ok m1 → finish m1 i = .ok m' →
      ∃ m2, finish m i = .ok m2 ∧ finish m2 h = .ok m')
    (hp : hs.Perm is) (hnodup : hs.Nodup) (he : m.finishEach finish hs = (m', none)) :
    m.finishEach finish is = (m', none) := by
  induction hp generalizing m with
  | nil => exact he
  | cons h _ ih =>
    obtain ⟨m1, h1, he⟩ := finishEach_cons_iff.1 he
    exact finishEach_cons_iff.2 ⟨m1, h1, ih (List.nodup_cons.1 hnodup).2 he⟩
  | swap i h hs =>
    obtain ⟨m1, h1, he⟩ := finishEach_cons_iff.1 he
    obtain ⟨m2, h2, he⟩ := finishEach_cons_iff.1 he
    have hne : h ≠ i := by
      rintro rfl
      exact (List.nodup_cons.1 hnodup).1 (List.mem_cons_self ..)
    obtain ⟨m3, h3, h4⟩ := hcomm hne h1 h2
    exact finishEach_cons_iff.2 ⟨m3, h3, finishEach_cons_iff.2 ⟨m2, h4, he⟩⟩
  | trans hp _ ih ih' => exact ih' (hp.nodup_iff.1 hnodup) (ih hnodup he)

theorem finishAllIn_eq_ok_iff {k : Nat} : m.finishAllIn old finish = (m', .ok k) ↔
    m.finishEach finish (m.handlesIn old) = (m', none) ∧ (m.handlesIn old).length = k := by
  rw [finishAllIn]
  generalize m.finishEach finish (m.handlesIn old) = out
  cases out with
  | mk m1 r => cases r <;> simp

/-- What finishes all classes in a state finishes them in every order. -/
theorem Local.finishEach_eq (hl : Local finish old ready count change) (hm : WellFormed m) {k : Nat}
    (hall : m.finishAllIn old finish = (m', .ok k)) (hp : hs.Perm (m.handlesIn old)) :
    m.finishEach finish hs = (m', none) ∧ k = hs.length := by
  obtain ⟨he, hcount⟩ := finishAllIn_eq_ok_iff.1 hall
  exact ⟨finishEach_perm hl.comm hp.symm (nodup_handlesIn hm old) he, hcount.symm.trans hp.length_eq.symm⟩

end Diamond

/-- A run that finishes classes one after the other. -/
theorem run_finishEach {op : Handle → Operation}
    (hop : ∀ {m h m'}, finish m h = .ok m' → m.step (op h) = (m', .done)) (he : m.finishEach finish hs = (m', none))
    (ops : List Operation) :
    m.run (hs.map op ++ ops) = ((m'.run ops).1, List.replicate hs.length .done ++ (m'.run ops).2) := by
  induction hs generalizing m with
  | nil =>
    obtain rfl : m = m' := congrArg Prod.fst he
    rfl
  | cons h hs ih =>
    obtain ⟨m1, h1, he⟩ := finishEach_cons_iff.1 he
    rw [List.map_cons, List.cons_append, run, hop h1]
    dsimp only
    rw [ih he]
    rfl

theorem run_finishMembers_perm (hm : WellFormed m) (hp : hs.Perm (m.handlesIn .building)) :
    ∃ m1, m.finishAllMembers = (m1, .ok hs.length) ∧ WellFormed m1 ∧ m1.pending = 0 ∧
      ∀ ops, m.run (hs.map .finishMembers ++ ops) =
        ((m1.run ops).1, List.replicate hs.length .done ++ (m1.run ops).2) := by
  obtain ⟨m1, hall, hpending, -⟩ := finishAllMembers_spec hm
  obtain ⟨heach, hcount⟩ := local_finishMembers.finishEach_eq hm hall hp
  have hcalm : Calm m m.finishAllMembers.1 :=
    finishAllIn_calm finishMembers (fun _ _ _ => Move.finishMembers) m .building
  rw [hcount] at hall
  rw [hall] at hcalm
  exact ⟨m1, hall, hcalm.moves.wellFormed hm, hpending, run_finishEach (fun hfin => step_finishMembers hfin) heach⟩

/-- Once no class takes members. -/
theorem run_finishRelations_perm (hm : WellFormed m) (hpending : m.pending = 0)
    (hp : hs.Perm (m.handlesIn .membersFinalized)) :
    ∃ m1, m.finishAllRelations = (m1, .ok hs.length) ∧
      ∀ ops, m.run (hs.map .finishRelations ++ ops) =
        ((m1.run ops).1, List.replicate hs.length .done ++ (m1.run ops).2) := by
  rcases finishAllRelations_cases hm with ⟨-, m1, hall, -⟩ | ⟨hno, -⟩
  · obtain ⟨heach, hcount⟩ := local_finishRelations.finishEach_eq hm hall hp
    rw [hcount] at hall
    exact ⟨m1, hall, run_finishEach (fun hfin => step_finishRelations hfin) heach⟩
  · exact absurd hpending hno

/-- After any run the classes that take members are finished in any order, and then in any order the relations of all
classes that wait for it. No step is refused, and the model is the one that finishing them all at once leaves. -/
theorem run_finished_anyhow (policy : Policy) (ops : List Operation) :
    let m := ((empty policy).run ops).1
    ∀ hs : List Handle, hs.Perm (m.handlesIn .building) →
      ∀ is : List Handle, is.Perm ((m.run (hs.map .finishMembers)).1.handlesIn .membersFinalized) →
        ∃ m', m.run (hs.map .finishMembers ++ is.map .finishRelations) =
            (m', List.replicate (hs.length + is.length) .done) ∧
          m.run [.finishAllMembers, .finishAllRelations] = (m', [.finished hs.length, .finished is.length]) := by
  intro m hs hhs is his
  have hm : WellFormed m := run_wellFormed policy ops
  obtain ⟨m1, hmembers, hm1, hpending, hfirst⟩ := run_finishMembers_perm hm hhs
  have hstart : (m.run (hs.map .finishMembers)).1 = m1 := by
    have := congrArg Prod.fst (hfirst [])
    rwa [List.append_nil] at this
  rw [hstart] at his
  obtain ⟨m2, hrelations, hsecond⟩ := run_finishRelations_perm hm1 hpending his
  have hlast : m1.run (is.map .finishRelations) = (m2, List.replicate is.length .done) := by
    have := hsecond []
    rwa [List.append_nil, run, List.append_nil] at this
  refine ⟨m2, ?_, ?_⟩
  · rw [hfirst, hlast, List.replicate_add]
  · simp [run, step, Operation.handles, perform, hmembers, hrelations]

/-- `A` is finished before the others are registered, and `C` before `B` and `D` take members and relations. -/
def comingAndGoing : List Operation :=
  let named (id : String) : Element := { attributes := { id := id, name := id, kind := .classType } }
  [.addClass (named "A") [], .finishAllMembers, .finishAllRelations, .addClass (named "D") [], .addClass (named "C") [],
    .addClass (named "B") [], .addRelation 2 .innerClass 1, .addRelation 2 .innerClass 3, .finishMembers 2,
    .addRelation 1 .superClass 3, .addRelation 3 .association 2, .addRelation 3 .association 1,
    .addRelation 0 .superClass 1, .addMember 1 (named "f")]

/-- Members of the last class first, relations of the first class last. -/
theorem run_finished_anyhow_backwards :
    let m := ((empty .byKind).run comingAndGoing).1
    [3, 1].Perm (m.handlesIn .building) ∧
      [3, 2, 1].Perm ((m.run ([3, 1].map .finishMembers)).1.handlesIn .membersFinalized) ∧
      ∃ m', m.run ([3, 1].map .finishMembers ++ [3, 2, 1].map .finishRelations) = (m', List.replicate 5 .done) ∧
        m.run [.finishAllMembers, .finishAllRelations] = (m', [.finished 2, .finished 3]) :=
  have hmembers : [3, 1].Perm (((empty .byKind).run comingAndGoing).1.handlesIn .building) := by
    decide +kernel
  have hrelations : [3, 2, 1].Perm
      ((((empty .byKind).run comingAndGoing).1.run ([3, 1].map .finishMembers)).1.handlesIn .membersFinalized) := by
    decide +kernel
  ⟨hmembers, hrelations, run_finished_anyhow .byKind comingAndGoing [3, 1] hmembers [3, 2, 1] hrelations⟩

end ClassModel

end ClassAtlas
