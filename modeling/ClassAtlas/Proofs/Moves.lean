import ClassAtlas.Proofs.Frame
import Mathlib.Logic.Relation

/-! Every operation comes down to moves of five kinds, and each run is a sequence of moves (`run_moves`), which end
in no other violations than the run answers (`run_within`); one without violations has only moves without them
(`run_calm`). Conversely such moves are a run of accepted operations (`Calm.run`), so an invariant of runs is one of
moves. -/

namespace ClassAtlas

/-- A relation between two classes as each of them lists it. -/
structure Link where
  source : Handle
  outbound : Relation
  target : Handle
  inbound : Relation

/-- Both classes list a link under the same relation, except that an interface has the classes that realize
it among its subclasses. -/
def Link.Listed (m : ClassModel) (l : Link) : Prop :=
  l.inbound = l.outbound ∨
    (l.outbound = .superInterface ∧ l.inbound = .superClass ∧
      (m.classAt l.source).isInterface = false)

structure Link.Fits (m : ClassModel) (l : Link) : Prop where
  source_lt : l.source < m.size
  target_lt : l.target < m.size
  apart : l.source ≠ l.target
  listed : l.Listed m

/-- The operation finishes classes. -/
def Operation.finishes : Operation → Bool
  | .finishMembers _ | .finishRelations _ | .finishAllMembers | .finishAllRelations => true
  | _ => false

namespace ClassModel

def link (m : ClassModel) (l : Link) : ClassModel × Option Violation :=
  m.recordBoth l.source l.outbound l.target l.inbound

/-- A link is recorded at its source and then, unless that is a violation, at its target. -/
theorem link_cases (m : ClassModel) (l : Link) :
    ((m.record l.source .outbound l.outbound l.target).2 ≠ none ∧
      m.link l = m.record l.source .outbound l.outbound l.target) ∨
    ((m.record l.source .outbound l.outbound l.target).2 = none ∧
      m.link l = (m.record l.source .outbound l.outbound l.target).1.record l.target .inbound l.inbound
        l.source) := by
  unfold link recordBoth
  cases m.record l.source .outbound l.outbound l.target with
  | mk m1 v =>
    cases v with
    | none => exact Or.inr ⟨rfl, rfl⟩
    | some v => exact Or.inl ⟨by simp, rfl⟩

/-- The target of a link is a class also after the source has its side. -/
theorem target_lt_record {m : ClassModel} {l : Link} (hl : l.Fits m) :
    l.target < (m.record l.source .outbound l.outbound l.target).1.size := by
  rw [size_record]
  exact hl.target_lt

/-- When its turn comes the target of a link is as it was. -/
theorem classAt_target_record {m : ClassModel} {l : Link} (hl : l.Fits m) :
    (m.record l.source .outbound l.outbound l.target).1.classAt l.target = m.classAt l.target := by
  rw [record_eq, classAt_modify hl.source_lt, if_neg (Ne.symm hl.apart)]

/-- A change of a model, with the violation it may end in. -/
inductive Move (m : ClassModel) : ClassModel → Option Violation → Prop
  | extend (e : Element) (ps : List TypeRef) (fresh : m.handle? e.id = none) :
    Move m (m.extend e ps) none
  | member {h : Handle} {x : Element} {m' : ClassModel} {v : Option Violation}
    (inside : h < m.size) (added : m.addMember h x = (m', v)) : Move m m' v
  | link {l : Link} {m' : ClassModel} {v : Option Violation}
    (fits : l.Fits m) (linked : m.link l = (m', v)) : Move m m' v
  | finishMembers {h : Handle} {m' : ClassModel} (finished : m.finishMembers h = .ok m') :
    Move m m' none
  | finishRelations {h : Handle} {m' : ClassModel} (finished : m.finishRelations h = .ok m') :
    Move m m' none

/-- Reached by moves, whatever they end in. -/
def Moves : ClassModel → ClassModel → Prop := Relation.ReflTransGen fun m m' => ∃ v, Move m m' v

/-- Reached by moves without a violation. -/
def Calm : ClassModel → ClassModel → Prop := Relation.ReflTransGen fun m m' => Move m m' none

variable {m m' : ClassModel}

theorem Calm.moves (h : Calm m m') : Moves m m' := Relation.ReflTransGen.mono (fun _ _ h => ⟨none, h⟩) _ _ h

theorem Calm.single (h : Move m m' none) : Calm m m' := Relation.ReflTransGen.single h

/-- What each finishing keeps, finishing one class after the other keeps, whether it is refused or not. -/
theorem finishEach_invariant {P : ClassModel → Prop} {finish : ClassModel → Handle → Except Refusal ClassModel}
    (keep : ∀ m h m', finish m h = .ok m' → P m → P m') (hm : P m) (hs : List Handle) :
    P (m.finishEach finish hs).1 := by
  induction hs generalizing m with
  | nil => exact hm
  | cons h hs ih =>
    unfold finishEach
    cases he : finish m h with
    | error r => exact hm
    | ok m1 => exact ih (keep m h m1 he hm)

theorem finishEach_calm (finish : ClassModel → Handle → Except Refusal ClassModel)
    (hf : ∀ m h m', finish m h = .ok m' → Move m m' none) (m : ClassModel) (hs : List Handle) :
    Calm m (m.finishEach finish hs).1 :=
  finishEach_invariant (P := Calm m) (fun m1 h m' he hm1 => Relation.ReflTransGen.tail hm1 (hf m1 h m' he))
    Relation.ReflTransGen.refl hs

theorem finishAllIn_fst (finish : ClassModel → Handle → Except Refusal ClassModel) (m : ClassModel)
    (state : Lifecycle) :
    (m.finishAllIn state finish).1 = (m.finishEach finish (m.handlesIn state)).1 := by
  unfold finishAllIn
  cases he : m.finishEach finish (m.handlesIn state) with
  | mk m1 r => cases r <;> simp [he]

theorem finishAllIn_calm (finish : ClassModel → Handle → Except Refusal ClassModel)
    (hf : ∀ m h m', finish m h = .ok m' → Move m m' none) (m : ClassModel) (state : Lifecycle) :
    Calm m (m.finishAllIn state finish).1 := by
  rw [finishAllIn_fst]
  exact finishEach_calm finish hf m (m.handlesIn state)

theorem perform_finishAllMembers_fst (m : ClassModel) :
    (m.perform .finishAllMembers).1 = (m.finishEach ClassModel.finishMembers (m.handlesIn .building)).1 := by
  rw [← finishAllIn_fst, perform, finishAllMembers]
  rcases m.finishAllIn .building ClassModel.finishMembers with ⟨m1, r | n⟩ <;> rfl

theorem perform_finishAllRelations_fst (m : ClassModel) : (m.perform .finishAllRelations).1 =
    (m.finishEach ClassModel.finishRelations (m.handlesIn .membersFinalized)).1 := by
  rw [← finishAllIn_fst, perform, finishAllRelations]
  rcases m.finishAllIn .membersFinalized ClassModel.finishRelations with ⟨m1, r | n⟩ <;> rfl

/-- What finishing one class keeps, every operation keeps that finishes classes. -/
theorem perform_finishes {P : ClassModel → Prop} (members : ∀ m h m', m.finishMembers h = .ok m' → P m → P m')
    (relations : ∀ m h m', m.finishRelations h = .ok m' → P m → P m') (hm : P m) {op : Operation}
    (hop : op.finishes = true) : P (m.perform op).1 := by
  have hkeeping {result : Except Refusal ClassModel} (h : ∀ m', result = .ok m' → P m') : P (m.keeping result).1 := by
    cases result with
    | error _ => exact hm
    | ok m' => exact h m' rfl
  cases op with
  | finishMembers h => exact hkeeping fun m' hfin => members m h m' hfin hm
  | finishRelations h => exact hkeeping fun m' hfin => relations m h m' hfin hm
  | finishAllMembers =>
    rw [perform_finishAllMembers_fst]
    exact finishEach_invariant members hm _
  | finishAllRelations =>
    rw [perform_finishAllRelations_fst]
    exact finishEach_invariant relations hm _
  | _ => cases hop

theorem listed_of_eq {l : Link} (h : l.inbound = l.outbound) : l.Listed m := Or.inl h

/-- The link that `addSuperInterface` makes. -/
theorem addSuperInterface_listed (m : ClassModel) (source target : Handle) :
    Link.Listed m ⟨source, .superInterface, target,
      if (m.classAt source).isInterface then .superInterface else .superClass⟩ := by
  cases h : (m.classAt source).isInterface
  · exact Or.inr ⟨rfl, rfl, h⟩
  · exact Or.inl rfl

/-- One operation makes no move, or one, or it finishes the classes in a state up to the first refusal. -/
inductive Stride (m : ClassModel) : ClassModel → Option Violation → Prop
  | stay : Stride m m none
  | move {m' : ClassModel} {v : Option Violation} (moved : Move m m' v) : Stride m m' v
  | finishMembers : Stride m (m.finishEach ClassModel.finishMembers (m.handlesIn .building)).1 none
  | finishRelations :
    Stride m (m.finishEach ClassModel.finishRelations (m.handlesIn .membersFinalized)).1 none

theorem keeping_stride {result : Except Refusal ClassModel} (h : ∀ m', result = .ok m' → Move m m' none) :
    Stride m (m.keeping result).1 none := by
  cases result with
  | error r => exact Stride.stay
  | ok m1 => exact Stride.move (h m1 rfl)

/-- The violation that a step ends in is the one it answers. -/
theorem step_stride (m : ClassModel) (op : Operation) :
    ∃ v, Stride m (m.step op).1 v ∧ ∀ w, v = some w → (m.step op).2 = .violated w := by
  have settle : ∀ {m1 : ClassModel} {v : Option Violation}, Move m m1 v →
      ∃ v', Stride m m1 v' ∧ ∀ w, v' = some w → Reply.ofViolation v = .violated w := by
    intro m1 v hv
    refine ⟨v, Stride.move hv, ?_⟩
    rintro w rfl
    rfl
  unfold step
  cases hfind : op.handles.find? fun h => m.size ≤ h with
  | some h => exact ⟨none, Stride.stay, by simp⟩
  | none =>
    have inside : ∀ h ∈ op.handles, h < m.size := by
      intro h hh
      simpa using List.find?_eq_none.1 hfind h hh
    cases op with
    | addClass e ps =>
      simp only [perform, addClass]
      cases hm : m.handle? e.id with
      | some _ => exact ⟨none, Stride.stay, by simp⟩
      | none => exact ⟨none, Stride.move (Move.extend e ps hm), by simp⟩
    | addMember h x => exact settle (Move.member (inside h (by simp [Operation.handles])) rfl)
    | addRelation s r t =>
      simp only [perform, addRelation]
      split
      · exact ⟨none, Stride.stay, by simp⟩
      · rename_i hst
        exact settle (Move.link (l := ⟨s, r, t, r⟩)
          ⟨inside s (by simp [Operation.handles]), inside t (by simp [Operation.handles]), hst,
            listed_of_eq rfl⟩ rfl)
    | addSuperInterface s t =>
      simp only [perform, addSuperInterface]
      split
      · exact ⟨none, Stride.stay, by simp⟩
      · rename_i hst
        exact settle (Move.link
          ⟨inside s (by simp [Operation.handles]), inside t (by simp [Operation.handles]), hst,
            addSuperInterface_listed m s t⟩ rfl)
    | finishMembers h => exact ⟨none, keeping_stride fun _ => Move.finishMembers, by simp⟩
    | finishRelations h => exact ⟨none, keeping_stride fun _ => Move.finishRelations, by simp⟩
    | finishAllMembers =>
      refine ⟨none, ?_, by simp⟩
      dsimp only
      exact perform_finishAllMembers_fst m ▸ Stride.finishMembers
    | finishAllRelations =>
      refine ⟨none, ?_, by simp⟩
      dsimp only
      exact perform_finishAllRelations_fst m ▸ Stride.finishRelations

/-- What a step can do: moves without a violation, or one move that ends in the violation it answers. -/
theorem step_cases (m : ClassModel) (op : Operation) :
    Calm m (m.step op).1 ∨
      ∃ v, (m.step op).2 = .violated v ∧ Move m (m.step op).1 (some v) := by
  obtain ⟨v, hstride, hv⟩ := step_stride m op
  generalize (m.step op).1 = m' at hstride ⊢
  cases hstride with
  | stay => exact Or.inl Relation.ReflTransGen.refl
  | move hmove =>
    cases v with
    | none => exact Or.inl (Calm.single hmove)
    | some w => exact Or.inr ⟨w, hv w rfl, hmove⟩
  | finishMembers => exact Or.inl (finishEach_calm _ (fun _ _ _ => Move.finishMembers) m _)
  | finishRelations => exact Or.inl (finishEach_calm _ (fun _ _ _ => Move.finishRelations) m _)

theorem step_moves (m : ClassModel) (op : Operation) : Moves m (m.step op).1 := by
  rcases step_cases m op with h | ⟨v, -, h⟩
  · exact h.moves
  · exact Relation.ReflTransGen.single ⟨some v, h⟩

theorem run_moves (m : ClassModel) (ops : List Operation) : Moves m (m.run ops).1 := by
  induction ops generalizing m with
  | nil => exact Relation.ReflTransGen.refl
  | cons op ops ih => exact Relation.ReflTransGen.trans (step_moves m op) (ih (m.step op).1)

/-- Reached by moves that end in no violation but those of `p`. -/
def Within (p : Violation → Prop) : ClassModel → ClassModel → Prop :=
  Relation.ReflTransGen fun m m' => ∃ v, Move m m' v ∧ ∀ w, v = some w → p w

theorem Calm.within (h : Calm m m') (p : Violation → Prop) : Within p m m' :=
  Relation.ReflTransGen.mono (fun _ _ h => ⟨none, h, by simp⟩) _ _ h

theorem Within.calm (h : Within (fun _ => False) m m') : Calm m m' := by
  refine Relation.ReflTransGen.mono (fun m m' h => ?_) _ _ h
  obtain ⟨v, hmove, hv⟩ := h
  cases v with
  | none => exact hmove
  | some w => exact (hv w rfl).elim

/-- The moves of a run end in the violations that it answers. -/
theorem run_within {p : Violation → Prop} {ops : List Operation} (h : ∀ v, .violated v ∈ (m.run ops).2 → p v) :
    Within p m (m.run ops).1 := by
  induction ops generalizing m with
  | nil => exact Relation.ReflTransGen.refl
  | cons op ops ih =>
    have hstep : Within p m (m.step op).1 := by
      rcases step_cases m op with hc | ⟨v, hv, hmove⟩
      · exact hc.within p
      · refine Relation.ReflTransGen.single ⟨some v, hmove, ?_⟩
        rintro w ⟨⟩
        exact h v (hv ▸ List.mem_cons_self ..)
    exact Relation.ReflTransGen.trans hstep (ih fun v hv => h v (List.mem_cons_of_mem _ hv))

theorem run_calm {ops : List Operation} (h : ∀ r ∈ (m.run ops).2, r.isViolation = false) :
    Calm m (m.run ops).1 :=
  (run_within fun v hv => by simpa [Reply.isViolation] using h _ hv).calm

/-- What every move keeps, every run keeps. -/
theorem Moves.invariant {P : ClassModel → Prop} (keep : ∀ m m' v, Move m m' v → P m → P m')
    (h : Moves m m') (hm : P m) : P m' := by
  induction h with
  | refl => exact hm
  | tail _ hv ih => obtain ⟨v, hv⟩ := hv; exact keep _ _ v hv ih

theorem Within.invariant {p : Violation → Prop} {P : ClassModel → Prop}
    (keep : ∀ m m' v, Move m m' v → (∀ w, v = some w → p w) → P m → P m') (h : Within p m m') (hm : P m) : P m' := by
  induction h with
  | refl => exact hm
  | tail _ hv ih => obtain ⟨v, hmove, hv⟩ := hv; exact keep _ _ v hmove hv ih

theorem Calm.invariant {P : ClassModel → Prop} (keep : ∀ m m', Move m m' none → P m → P m')
    (h : Calm m m') (hm : P m) : P m' := by
  induction h with
  | refl => exact hm
  | tail _ hv ih => exact keep _ _ hv ih

/-- An operation on classes of the model is carried out. -/
theorem step_eq_perform {op : Operation} (inside : ∀ h ∈ op.handles, h < m.size) : m.step op = m.perform op := by
  have hnone : op.handles.find? (fun h => m.size ≤ h) = none := by
    rw [List.find?_eq_none]
    intro h hh
    simpa using inside h hh
  simp [ClassModel.step, hnone]

/-- Every operation of a list meets its precondition when its turn comes in a run. -/
def AdmitsAll (m : ClassModel) : List Operation → Prop
  | [] => True
  | op :: ops => m.Admits op ∧ (m.step op).1.AdmitsAll ops

theorem step_of_not_admits {op : Operation} (h : ¬ m.Admits op) : (m.step op).1 = m := by
  unfold step
  cases hfind : op.handles.find? fun h => m.size ≤ h with
  | some i => rfl
  | none => exact absurd (fun i hi => by simpa using List.find?_eq_none.1 hfind i hi) h

/-- Where a run leads, a run leads that keeps to the precondition, and it answers nothing else. So what is shown of all
runs is about such runs. -/
theorem run_admitted (m : ClassModel) (ops : List Operation) : m.AdmitsAll (m.admitted ops) ∧
    (m.run (m.admitted ops)).1 = (m.run ops).1 ∧ (m.run (m.admitted ops)).2.Sublist (m.run ops).2 := by
  induction ops generalizing m with
  | nil => exact ⟨trivial, rfl, List.Sublist.refl _⟩
  | cons op ops ih =>
    by_cases h : m.Admits op
    · obtain ⟨hall, hmodel, hreplies⟩ := ih (m.step op).1
      rw [admitted, if_pos h]
      exact ⟨⟨h, hall⟩, hmodel, hreplies.cons_cons _⟩
    · have hrun : m.run (op :: ops) =
          (((m.step op).1.run ops).1, (m.step op).2 :: ((m.step op).1.run ops).2) := rfl
      obtain ⟨hall, hmodel, hreplies⟩ := ih m
      rw [admitted, if_neg h, hrun, step_of_not_admits h]
      exact ⟨hall, hmodel, hreplies.cons _⟩

theorem step_finishMembers {h : Handle} (hfin : m.finishMembers h = .ok m') :
    m.step (.finishMembers h) = (m', .done) := by
  have hh : h < m.size := (finishMembers_eq_ok_iff.1 hfin).1
  rw [step_eq_perform (by simpa [Operation.handles] using hh), perform, hfin]
  rfl

theorem step_finishRelations {h : Handle} (hfin : m.finishRelations h = .ok m') :
    m.step (.finishRelations h) = (m', .done) := by
  have hh : h < m.size := (finishRelations_eq_ok_iff.1 hfin).1
  rw [step_eq_perform (by simpa [Operation.handles] using hh), perform, hfin]
  rfl

/-- A move without a violation is an accepted operation. -/
theorem Move.step (h : Move m m' none) : ∃ op, (m.step op).1 = m' ∧ (m.step op).2.isAccepted = true := by
  cases h with
  | extend e ps fresh =>
    refine ⟨.addClass e ps, ?_⟩
    rw [step_eq_perform (by simp [Operation.handles])]
    simp [perform, addClass, fresh, Reply.isAccepted]
  | @member h x _ _ hh added =>
    refine ⟨.addMember h x, ?_⟩
    rw [step_eq_perform (by simpa [Operation.handles] using hh)]
    simp [perform, added, Reply.ofViolation, Reply.isAccepted]
  | @link l _ _ fits linked =>
    obtain ⟨s, o, t, i⟩ := l
    have hop : ∀ h ∈ [s, t], h < m.size := by
      simpa using ⟨fits.source_lt, fits.target_lt⟩
    have hst : s ≠ t := fits.apart
    rcases fits.listed with hl | ⟨hl, hi, hint⟩
    · obtain rfl : i = o := hl
      refine ⟨.addRelation s i t, ?_⟩
      change m.recordBoth s i t i = _ at linked
      have hstep : m.step (.addRelation s i t) = m.perform (.addRelation s i t) := step_eq_perform hop
      rw [hstep]
      simp [perform, addRelation, hst, linked, Reply.ofViolation, Reply.isAccepted]
    · obtain rfl : o = .superInterface := hl
      obtain rfl : i = .superClass := hi
      refine ⟨.addSuperInterface s t, ?_⟩
      change m.recordBoth s .superInterface t .superClass = _ at linked
      have hstep : m.step (.addSuperInterface s t) = m.perform (.addSuperInterface s t) := step_eq_perform hop
      rw [hstep]
      simp [perform, addSuperInterface, hst, show (m.classAt s).isInterface = false from hint, linked,
        Reply.ofViolation, Reply.isAccepted]
  | @finishMembers h _ finished =>
    refine ⟨.finishMembers h, ?_⟩
    rw [step_finishMembers finished]
    exact ⟨rfl, rfl⟩
  | @finishRelations h _ finished =>
    refine ⟨.finishRelations h, ?_⟩
    rw [step_finishRelations finished]
    exact ⟨rfl, rfl⟩

theorem Calm.run (h : Calm m m') :
    ∃ ops, (m.run ops).1 = m' ∧ ∀ r ∈ (m.run ops).2, r.isAccepted = true := by
  induction h using Relation.ReflTransGen.head_induction_on with
  | refl => exact ⟨[], rfl, by simp [ClassModel.run]⟩
  | head hmove _ ih =>
    obtain ⟨op, hop, hacc⟩ := Move.step hmove
    obtain ⟨ops, hrun, hall⟩ := ih
    subst hop
    refine ⟨op :: ops, hrun, fun r hr => ?_⟩
    rcases List.mem_cons.1 hr with rfl | hr
    · exact hacc
    · exact hall r hr

end ClassModel

end ClassAtlas
