import ClassAtlas.Proofs.Ledgers
import ClassAtlas.Proofs.Relating

/-! What a violation leaves of the operation that it ends, in any state of any run (`run_remains`): nothing, a note in
one ledger, or half of a nesting, and that only where a class that is still building nests a finished one. A class
refuses nothing inbound but its outer class, and the source has its side by then. -/

namespace ClassAtlas

namespace ClassModel

open ClassNode

variable {m m1 m' : ClassModel} {l : Link} {s t h : Handle} {d : Direction} {r : Relation} {v : Violation}
  {hs : List Handle}

/-- The second model differs from the first at most in open cells and in ledgers of some classes. -/
structure Untouched (m : ClassModel) (hs : List Handle) (m' : ClassModel) : Prop where
  others : ∀ h ∉ hs, m'.classAt h = m.classAt h
  kept : ∀ h, m'.classAt h = { m.classAt h with cells := (m'.classAt h).cells, ledgers := (m'.classAt h).ledgers }
  frozen : ∀ h d r, ((m.classAt h).cell d r).frozen = true → (m'.classAt h).cell d r = (m.classAt h).cell d r
  size : m'.size = m.size
  rest : m' = { m with classes := m'.classes }

theorem Untouched.refl (m : ClassModel) (hs : List Handle) : Untouched m hs m :=
  ⟨fun _ _ => rfl, fun _ => rfl, fun _ _ _ _ => rfl, rfl, rfl⟩

theorem Untouched.trans (h : Untouched m hs m1) (h' : Untouched m1 hs m') : Untouched m hs m' where
  others x hx := (h'.others x hx).trans (h.others x hx)
  kept x := by rw [h'.kept x, h.kept x]
  frozen x d r hf := by
    have hf1 := h.frozen x d r hf
    exact (h'.frozen x d r (hf1 ▸ hf)).trans hf1
  size := h'.size.trans h.size
  rest := by rw [h'.rest, h.rest]

theorem untouched_record (ho : h < m.size) (hmem : h ∈ hs) (d : Direction) (r : Relation) (t : Handle) :
    Untouched m hs (m.record h d r t).1 := by
  refine ⟨fun x hx => ?_, fun x => ?_, fun x d' r' hf => ?_, size_record .., rfl⟩
  · rw [classAt_record ho, if_neg]
    rintro rfl
    exact hx hmem
  · rw [classAt_record ho]
    split
    · rename_i e
      obtain ⟨cells, ledgers, hrecord⟩ := record_frame (m.classAt h) d r t
      rw [e, hrecord]
    · rfl
  · rw [classAt_record ho]
    split
    · rename_i e
      subst e
      exact cell_record_of_frozen hf
    · rfl

/-- Relating two classes touches no others, and no more of these than cells and ledgers. -/
theorem untouched_link (hl : l.Fits m) : Untouched m [l.source, l.target] (m.link l).1 := by
  have hsource : Untouched m [l.source, l.target] (m.record l.source .outbound l.outbound l.target).1 :=
    untouched_record hl.source_lt (by simp) ..
  rcases link_cases m l with ⟨-, e⟩ | ⟨-, e⟩ <;> rw [e]
  · exact hsource
  · exact hsource.trans (untouched_record (target_lt_record hl) (by simp) ..)

/-- The model with a target at the end of a ledger. -/
def noteAt (m : ClassModel) (h : Handle) (d : Direction) (t : Handle) : ClassModel :=
  m.modify h fun n => { n with ledgers := n.ledgers.modify d (· ++ [t]) }

/-- The model with a target nested in a class as far as that class knows: in its ledger and in its cell. -/
def nestAt (m : ClassModel) (s t : Handle) : ClassModel :=
  m.modify s fun n => { n with
    ledgers := n.ledgers.modify .outbound (· ++ [t])
    cells := n.cells.modify (.outbound, .innerClass) (·.insert t) }

/-- What a violation leaves of the operation that it ends. -/
inductive Remains (m : ClassModel) : Operation → Violation → ClassModel → Prop
  | member {h : Handle} {x : Element} : Remains m (.addMember h x) (.lateMember x.name (m.classAt h).id) m
  | superInterface {s t : Handle} :
    Remains m (.addSuperInterface s t) (.frozenSlot (.outbound, .superInterface) (m.classAt s).id) m
  | outbound {s t : Handle} {r : Relation} (plain : r.isCheckable = false) :
    Remains m (.addRelation s r t) (.frozenSlot (.outbound, r) (m.classAt s).id) m
  | outboundNoted {s t : Handle} {r : Relation} (checkable : r.isCheckable = true) :
    Remains m (.addRelation s r t) (.frozenSlot (.outbound, r) (m.classAt s).id) (m.noteAt s .outbound t)
  | inbound {s t : Handle} (final : (m.classAt t).lifecycle = .relationsFinalized) :
    Remains m (.addRelation s .innerClass t) (.frozenSlot (.inbound, .innerClass) (m.classAt t).id)
      (m.noteAt t .inbound s)
  /-- The source is still building and came after the target, which is finished. -/
  | inboundNested {s t : Handle} (final : (m.classAt t).lifecycle = .relationsFinalized)
    (building : (m.classAt s).lifecycle = .building) (later : t < s)
    (appended : ((m.nestAt s t).classAt s).targets .outbound .innerClass =
      (m.classAt s).targets .outbound .innerClass ++ [t]) :
    Remains m (.addRelation s .innerClass t) (.frozenSlot (.inbound, .innerClass) (m.classAt t).id)
      ((m.nestAt s t).noteAt t .inbound s)

theorem record_violated (ho : h < m.size) (hv : (m.record h d r t).2 = some v) :
    ¬ (m.classAt h).Suppresses d r t ∧ ((m.classAt h).cell d r).frozen = true ∧
      v = .frozenSlot (d, r) (m.classAt h).id ∧
      (m.record h d r t).1 = if r.isCheckable = true then m.noteAt h d t else m := by
  rw [record_eq] at hv ⊢
  rcases record_cases (m.classAt h) d r t with ⟨-, e⟩ | ⟨hs, hf, e⟩ | ⟨-, -, e⟩
  · rw [e] at hv
    cases hv
  · rw [e] at hv ⊢
    refine ⟨hs, hf, (Option.some.inj hv).symm, ?_⟩
    dsimp only
    unfold note
    split
    · exact modify_fun_classAt ho fun n => { n with ledgers := n.ledgers.modify d (· ++ [t]) }
    · exact modify_classAt ho
  · rw [e] at hv
    cases hv

/-- A link fails at its source before anything else, or at a finished target that it would nest somewhere. -/
theorem link_violated (hl : l.Fits m) (hstaged : (m.classAt l.target).Staged) (hv : (m.link l).2 = some v) :
    (v = .frozenSlot (.outbound, l.outbound) (m.classAt l.source).id ∧
      (m.link l).1 = if l.outbound.isCheckable = true then m.noteAt l.source .outbound l.target else m) ∨
    (l.inbound = .innerClass ∧ (m.classAt l.target).lifecycle = .relationsFinalized ∧
      v = .frozenSlot (.inbound, .innerClass) (m.classAt l.target).id ∧
      (m.record l.source .outbound l.outbound l.target).2 = none ∧
      (m.link l).1 = (m.record l.source .outbound l.outbound l.target).1.noteAt l.target .inbound l.source) := by
  rcases link_cases m l with ⟨-, e⟩ | ⟨hnone, e⟩ <;> rw [e] at hv ⊢
  · obtain ⟨-, -, hv, e⟩ := record_violated hl.source_lt hv
    exact Or.inl ⟨hv, e⟩
  · obtain ⟨-, hf, hv, e⟩ := record_violated (target_lt_record hl) hv
    rw [classAt_target_record hl] at hf hv
    obtain ⟨hnest, hfinal⟩ := (hstaged.inbound _).1 hf
    rw [hnest] at hv e ⊢
    exact Or.inr ⟨rfl, hfinal, hv, hnone, e⟩

theorem remains_superInterface (hl : (m.interfaceLink s t).Fits m) (hstaged : (m.classAt t).Staged)
    (hv : (m.link (m.interfaceLink s t)).2 = some v) :
    Remains m (.addSuperInterface s t) v (m.link (m.interfaceLink s t)).1 := by
  rcases link_violated hl hstaged hv with ⟨rfl, e⟩ | ⟨hnest, -⟩
  · rw [e]
    exact .superInterface
  · exact absurd hnest (interfaceLink_inbound_ne m s t)

/-- A nesting that its source takes is one of a class that is still building, and so came after a finished target. -/
theorem remains_relation (hl : Link.Fits m ⟨s, r, t, r⟩) (hstaged : ∀ h, (m.classAt h).Staged)
    (hbooked : (m.classAt s).Booked) (hbarrier : Barrier m) (hv : (m.link ⟨s, r, t, r⟩).2 = some v) :
    Remains m (.addRelation s r t) v (m.link ⟨s, r, t, r⟩).1 := by
  have hs : s < m.size := hl.source_lt
  rcases link_violated hl (hstaged t) hv with ⟨rfl, e⟩ | ⟨hnest, hfinal, rfl, hnone, e⟩
  · rw [e]
    split
    · exact .outboundNoted ‹_›
    · exact .outbound (Bool.eq_false_iff.2 ‹_›)
  · obtain rfl : r = .innerClass := hnest
    rw [e]
    rw [record_eq] at hnone ⊢
    dsimp only at hnone ⊢
    rcases record_cases (m.classAt s) .outbound .innerClass t with ⟨-, e⟩ | ⟨-, -, e⟩ | ⟨hnew, hopen, e⟩
    · rw [e, modify_classAt hs]
      exact .inbound hfinal
    · rw [e] at hnone
      cases hnone
    · have hbuilding : (m.classAt s).lifecycle = .building := by
        have hno := mt ((hstaged s).outbound .innerClass).2 (Bool.eq_false_iff.1 hopen)
        cases hlife : (m.classAt s).lifecycle <;> simp_all
      have hfresh : t ∉ (m.classAt s).targets .outbound .innerClass :=
        fun hin => hnew ⟨rfl, hbooked.noted _ _ _ rfl hin⟩
      rw [e]
      have hnested : (m.modify s fun _ => ((m.classAt s).note .outbound .innerClass t).put .outbound .innerClass t) =
          m.nestAt s t := modify_fun_classAt hs fun n => (n.note .outbound .innerClass t).put .outbound .innerClass t
      rw [hnested]
      refine .inboundNested hfinal hbuilding (hbarrier s hs t hl.target_lt hbuilding hfinal) ?_
      rw [← hnested, classAt_modify hs, if_pos rfl, targets, cell_put, if_pos ⟨rfl, rfl⟩, cell_note,
        Cell.targets_insert hopen]
      exact if_neg hfresh

theorem handles_lt_of_violated {op : Operation} (hv : (m.step op).2 = .violated v) : ∀ h ∈ op.handles, h < m.size := by
  intro h hmem
  by_contra hout
  have hfind : (op.handles.find? fun h => m.size ≤ h).isSome := by
    rw [List.find?_isSome]
    exact ⟨h, hmem, by simpa using Nat.le_of_not_lt hout⟩
  obtain ⟨i, hi⟩ := Option.isSome_iff_exists.1 hfind
  rw [step, hi] at hv
  cases hv

theorem ofViolation_eq_violated {w : Option Violation} (h : Reply.ofViolation w = .violated v) : w = some v := by
  cases w with
  | none => cases h
  | some w =>
    cases h
    rfl

/-- Only additions to classes end in violations. -/
theorem step_violated (hstaged : ∀ h, (m.classAt h).Staged) (hbooked : ∀ h, (m.classAt h).Booked)
    (hbarrier : Barrier m) {op : Operation} (hv : (m.step op).2 = .violated v) :
    Remains m op v (m.step op).1 ∧ Untouched m op.handles (m.step op).1 := by
  have inside := handles_lt_of_violated hv
  have hkeeping (result : Except Refusal ClassModel) : (m.keeping result).2 ≠ .violated v := by
    cases result <;> simp [keeping]
  cases op with
  | addMember h x =>
    rw [step_eq_perform inside] at hv ⊢
    simp only [perform] at hv ⊢
    rcases addMember_cases m h x with ⟨-, e⟩ | ⟨-, e⟩ <;> rw [e] at hv ⊢
    · cases hv
    · cases hv
      exact ⟨.member, Untouched.refl m _⟩
  | addRelation s r t =>
    have hs : s < m.size := inside s (by simp [Operation.handles])
    have ht : t < m.size := inside t (by simp [Operation.handles])
    rw [step_addRelation hs ht] at hv ⊢
    by_cases hst : s = t
    · rw [if_pos hst] at hv
      cases hv
    · rw [if_neg hst] at hv ⊢
      have hl : Link.Fits m ⟨s, r, t, r⟩ := ⟨hs, ht, hst, listed_of_eq rfl⟩
      exact ⟨remains_relation hl hstaged (hbooked s) hbarrier (ofViolation_eq_violated hv), untouched_link hl⟩
  | addSuperInterface s t =>
    have hs : s < m.size := inside s (by simp [Operation.handles])
    have ht : t < m.size := inside t (by simp [Operation.handles])
    rw [step_addSuperInterface hs ht] at hv ⊢
    by_cases hst : s = t
    · rw [if_pos hst] at hv
      cases hv
    · rw [if_neg hst] at hv ⊢
      have hl := interfaceLink_fits hs ht hst
      exact ⟨remains_superInterface hl (hstaged t) (ofViolation_eq_violated hv), untouched_link hl⟩
  | addClass e ps =>
    rw [step_eq_perform inside] at hv
    simp only [perform] at hv
    split at hv <;> cases hv
  | finishMembers h =>
    rw [step_eq_perform inside] at hv
    exact absurd hv (hkeeping _)
  | finishRelations h =>
    rw [step_eq_perform inside] at hv
    exact absurd hv (hkeeping _)
  | finishAllMembers =>
    rw [step_eq_perform inside] at hv
    simp only [perform] at hv
    split at hv <;> cases hv
  | finishAllRelations =>
    rw [step_eq_perform inside] at hv
    simp only [perform] at hv
    split at hv <;> cases hv

/-- After any run, violations included, the next violation leaves little and touches less. -/
theorem run_remains (policy : Policy) (ops : List Operation) (op : Operation) (v : Violation)
    (violated : (((empty policy).run ops).1.step op).2 = .violated v) :
    let m := ((empty policy).run ops).1
    Remains m op v (m.step op).1 ∧ Untouched m op.handles (m.step op).1 :=
  have hmoves := run_moves (empty policy) ops
  step_violated hmoves.staged hmoves.booked (run_barrier policy ops) violated

/-- `A` is finished and failed to nest `B`, which leaves a note; then `C` comes. -/
def latecomer : List Operation :=
  let named (id : String) : Element := { attributes := { id := id, name := id, kind := .classType } }
  [.addClass (named "A") [], .addClass (named "B") [], .finishAllMembers, .finishAllRelations,
    .addRelation 0 .innerClass 1, .addClass (named "C") []]

/-- `C` takes `A` as nested before `A` refuses. -/
theorem run_remains_latecomer :
    let m := ((empty .byKind).run latecomer).1
    let op : Operation := .addRelation 2 .innerClass 0
    let v : Violation := .frozenSlot (.inbound, .innerClass) "A"
    (m.step op).2 = .violated v ∧ ((m.step op).1.classAt 2).targets .outbound .innerClass = [0] ∧
      ((m.step op).1.classAt 0).targets .inbound .innerClass = [] ∧
      Remains m op v (m.step op).1 ∧ Untouched m op.handles (m.step op).1 :=
  have violated : (((empty .byKind).run latecomer).1.step (.addRelation 2 .innerClass 0)).2 =
      .violated (.frozenSlot (.inbound, .innerClass) "A") := by rfl
  ⟨violated, by decide +kernel, by decide +kernel, run_remains .byKind latecomer _ _ violated⟩

end ClassModel

end ClassAtlas
