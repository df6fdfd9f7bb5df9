import ClassAtlas.Proofs.Mirror
import ClassAtlas.Proofs.Stages

/-! When relating two classes is a violation, and what it changes when it is none. Each end looks at its own ledger and
at its own cell, but as long as there was no violation the two ledgers agree, so both ends keep a relation out or
neither does (`run_relates`). -/

namespace ClassAtlas

namespace Cell

variable {c : Cell} {t : Handle}

theorem mem_seen_iff (isOpen : c.frozen = false) : t ∈ c.seen ↔ t ∈ c.targets :=
  ⟨c.mem_of_seen t, c.seen_of_mem isOpen t⟩

theorem targets_insert (isOpen : c.frozen = false) :
    (c.insert t).targets = if t ∈ c.targets then c.targets else c.targets ++ [t] := by
  unfold insert
  by_cases ht : t ∈ c.targets
  · rw [if_pos ((mem_seen_iff isOpen).2 ht), if_pos ht]
  · rw [if_neg (mt (mem_seen_iff isOpen).1 ht), if_neg ht]

theorem seen_insert (isOpen : c.frozen = false) :
    (c.insert t).seen = if t ∈ c.targets then c.seen else t :: c.seen := by
  unfold insert
  by_cases ht : t ∈ c.targets
  · rw [if_pos ((mem_seen_iff isOpen).2 ht), if_pos ht]
  · rw [if_neg (mt (mem_seen_iff isOpen).1 ht), if_neg ht]

end Cell

namespace ClassNode

variable {n : ClassNode} {d d' : Direction} {r r' : Relation} {t : Handle}

instance : Decidable (n.Suppresses d r t) := inferInstanceAs (Decidable (_ ∧ _))

/-- The second class is the first one with a target recorded: it stands at the end of the cell, unless it was there
or the ledger keeps it out, and the ledger knows it if the relation is checkable. -/
structure Takes (n : ClassNode) (d : Direction) (r : Relation) (t : Handle) (n' : ClassNode) : Prop where
  targets : n'.targets d r =
    if n.Suppresses d r t ∨ t ∈ n.targets d r then n.targets d r else n.targets d r ++ [t]
  seen : (n'.cell d r).seen =
    if n.Suppresses d r t ∨ t ∈ n.targets d r then (n.cell d r).seen else t :: (n.cell d r).seen
  frozen : (n'.cell d r).frozen = (n.cell d r).frozen
  cells : ∀ d' r', ¬ (d' = d ∧ r' = r) → n'.cell d' r' = n.cell d' r'
  ledger : n'.ledger d =
    if r.isCheckable = true ∧ t ∉ n.ledger d then n.ledger d ++ [t] else n.ledger d
  ledgers : ∀ d', d' ≠ d → n'.ledger d' = n.ledger d'
  rest : n' = { n with cells := n'.cells, ledgers := n'.ledgers }

theorem not_suppresses (hr : r.isCheckable = false) : ¬ n.Suppresses d r t := by
  rintro ⟨hc, -⟩
  rw [hr] at hc
  cases hc

theorem record_eq_none_iff : (n.record d r t).2 = none ↔ n.Suppresses d r t ∨ (n.cell d r).frozen = false := by
  rcases record_cases n d r t with ⟨hs, e⟩ | ⟨hs, hf, e⟩ | ⟨hs, hopen, e⟩
  · simp [e, hs]
  · simp [e, hs, hf]
  · simp [e, hopen]

theorem ledger_note_self : (n.note d r t).ledger d =
    if r.isCheckable = true then n.ledger d ++ [t] else n.ledger d := by
  unfold note
  split <;> simp [ledger, EnumMap.get_modify]

theorem ledger_note_ne (hd : d' ≠ d) : (n.note d r t).ledger d' = n.ledger d' := by
  unfold note
  split
  · simp [ledger, EnumMap.get_modify, hd]
  · rfl

theorem takes_record (h : (n.record d r t).2 = none) : n.Takes d r t (n.record d r t).1 := by
  have hrest : (n.record d r t).1 =
      { n with cells := (n.record d r t).1.cells, ledgers := (n.record d r t).1.ledgers } := by
    obtain ⟨cells, ledgers, e⟩ := record_frame n d r t
    rw [e]
  rcases record_cases n d r t with ⟨hs, e⟩ | ⟨-, -, e⟩ | ⟨hs, hopen, e⟩ <;> rw [e] at h hrest ⊢
  · refine ⟨(if_pos (Or.inl hs)).symm, (if_pos (Or.inl hs)).symm, rfl, fun _ _ _ => rfl, ?_, fun _ _ => rfl, hrest⟩
    rw [if_neg fun hnew => hnew.2 hs.2]
  · cases h
  · have hcell : ((n.note d r t).put d r t).cell d r = (n.cell d r).insert t := by
      rw [cell_put, if_pos ⟨rfl, rfl⟩, cell_note]
    have hkeeps : n.Suppresses d r t ∨ t ∈ n.targets d r ↔ t ∈ (n.cell d r).targets := or_iff_right hs
    refine ⟨?_, ?_, ?_, fun d' r' hne => ?_, ?_, fun d' hd => ?_, hrest⟩
    · rw [ClassNode.targets, hcell, Cell.targets_insert hopen]
      simp only [hkeeps]
      rfl
    · rw [hcell, Cell.seen_insert hopen]
      simp only [hkeeps]
    · rw [hcell, Cell.frozen_insert]
    · rw [cell_put, if_neg hne, cell_note]
    · rw [ledger_put, ledger_note_self]
      by_cases hr : r.isCheckable = true
      · rw [if_pos hr, if_pos ⟨hr, fun ht => hs ⟨hr, ht⟩⟩]
      · rw [if_neg hr, if_neg fun hnew => hr hnew.1]
    · rw [ledger_put, ledger_note_ne hd]

end ClassNode

namespace ClassModel

open ClassNode

variable {m m' : ClassModel} {l : Link} {s t : Handle} {r : Relation}

/-- The second model is the first one with a link made, at both of its ends and nowhere else. -/
structure Linked (m : ClassModel) (l : Link) (m' : ClassModel) : Prop where
  source : (m.classAt l.source).Takes .outbound l.outbound l.target (m'.classAt l.source)
  target : (m.classAt l.target).Takes .inbound l.inbound l.source (m'.classAt l.target)
  others : ∀ h, h ≠ l.source → h ≠ l.target → m'.classAt h = m.classAt h
  size : m'.size = m.size
  rest : m' = { m with classes := m'.classes }

theorem link_eq_none_iff (hl : l.Fits m) : (m.link l).2 = none ↔
    ((m.classAt l.source).Suppresses .outbound l.outbound l.target ∨
      ((m.classAt l.source).cell .outbound l.outbound).frozen = false) ∧
    ((m.classAt l.target).Suppresses .inbound l.inbound l.source ∨
      ((m.classAt l.target).cell .inbound l.inbound).frozen = false) := by
  rw [← record_eq_none_iff, ← record_eq_none_iff]
  rcases link_cases m l with ⟨hv, e⟩ | ⟨hv, e⟩ <;> rw [e]
  · exact ⟨fun h => absurd h hv, fun h => absurd h.1 hv⟩
  · rw [record_eq _ l.target, classAt_target_record hl]
    exact (and_iff_right hv).symm

theorem linked_link (hl : l.Fits m) (h : (m.link l).2 = none) : Linked m l (m.link l).1 := by
  obtain ⟨hv, hlink⟩ := link_eq_none (Prod.ext rfl h : m.link l = ((m.link l).1, none))
  have htarget := target_lt_record hl
  have hv' := congrArg Prod.snd hlink
  rw [record_eq _ l.target, classAt_target_record hl] at hv'
  have hclass (x : Handle) : (m.link l).1.classAt x =
      if x = l.target then ((m.classAt l.target).record .inbound l.inbound l.source).1
      else if x = l.source then ((m.classAt l.source).record .outbound l.outbound l.target).1 else m.classAt x := by
    rw [← congrArg Prod.fst hlink, classAt_record htarget, classAt_target_record hl, classAt_record hl.source_lt]
  refine ⟨?_, ?_, fun x hs ht => ?_, ?_, ?_⟩
  · rw [hclass, if_neg hl.apart, if_pos rfl]
    exact takes_record hv
  · rw [hclass, if_pos rfl]
    exact takes_record hv'
  · rw [hclass, if_neg ht, if_neg hs]
  · rw [← congrArg Prod.fst hlink, size_record, size_record]
  · rw [← congrArg Prod.fst hlink]
    rfl

/-- The link that a class and an interface above it make: a class that realizes an interface is listed among the
subclasses there. -/
def interfaceLink (m : ClassModel) (s t : Handle) : Link :=
  ⟨s, .superInterface, t, if (m.classAt s).isInterface then .superInterface else .superClass⟩

theorem interfaceLink_inbound_ne (m : ClassModel) (s t : Handle) : (m.interfaceLink s t).inbound ≠ .innerClass := by
  rcases ite_eq_or_eq ((m.classAt s).isInterface = true) Relation.superInterface .superClass with e | e <;>
    simp [interfaceLink, e]

section Step

variable (hs : s < m.size) (ht : t < m.size)

include hs ht

theorem step_addRelation (r : Relation) : m.step (.addRelation s r t) = if s = t then (m, .done) else
    ((m.link ⟨s, r, t, r⟩).1, .ofViolation (m.link ⟨s, r, t, r⟩).2) := by
  rw [step_eq_perform (by simpa [Operation.handles] using ⟨hs, ht⟩), perform, addRelation]
  by_cases h : s = t
  · rw [if_pos h, if_pos h]
    rfl
  · rw [if_neg h, if_neg h]
    rfl

theorem step_addSuperInterface : m.step (.addSuperInterface s t) = if s = t then (m, .done) else
    ((m.link (m.interfaceLink s t)).1, .ofViolation (m.link (m.interfaceLink s t)).2) := by
  rw [step_eq_perform (by simpa [Operation.handles] using ⟨hs, ht⟩), perform, addSuperInterface]
  by_cases h : s = t
  · rw [if_pos h, if_pos h]
    rfl
  · rw [if_neg h, if_neg h]
    rfl

end Step

theorem isViolation_ofViolation (v : Option Violation) : (Reply.ofViolation v).isViolation = false ↔ v = none := by
  cases v <;> simp [Reply.ofViolation, Reply.isViolation]

theorem interfaceLink_fits (hs : s < m.size) (ht : t < m.size) (hst : s ≠ t) : (m.interfaceLink s t).Fits m :=
  ⟨hs, ht, hst, addSuperInterface_listed m s t⟩

/-- What comes of relating two classes of a model. -/
structure Relates (m : ClassModel) (s t : Handle) : Prop where
  lockstep : ∀ r, (m.classAt s).Suppresses .outbound r t ↔ (m.classAt t).Suppresses .inbound r s
  violated : ∀ r, (m.step (.addRelation s r t)).2.isViolation = true ↔
    s ≠ t ∧ ¬ (m.classAt s).Suppresses .outbound r t ∧
      (((m.classAt s).cell .outbound r).frozen = true ∨ ((m.classAt t).cell .inbound r).frozen = true)
  violatedInterface : (m.step (.addSuperInterface s t)).2.isViolation = true ↔
    s ≠ t ∧ ((m.classAt s).cell .outbound .superInterface).frozen = true
  linked : ∀ r, s ≠ t → (m.step (.addRelation s r t)).2.isViolation = false →
    Linked m ⟨s, r, t, r⟩ (m.step (.addRelation s r t)).1
  linkedInterface : s ≠ t → (m.step (.addSuperInterface s t)).2.isViolation = false →
    Linked m (m.interfaceLink s t) (m.step (.addSuperInterface s t)).1
  alone : s = t → (∀ r, m.step (.addRelation s r t) = (m, .done)) ∧ m.step (.addSuperInterface s t) = (m, .done)

/-- A relation that is not checkable is never kept out, and no class refuses another below it. -/
theorem link_interface_eq_none_iff (hl : (m.interfaceLink s t).Fits m) (hstaged : (m.classAt t).Staged) :
    (m.link (m.interfaceLink s t)).2 = none ↔ ((m.classAt s).cell .outbound .superInterface).frozen = false := by
  have hopen : ((m.classAt t).cell .inbound (m.interfaceLink s t).inbound).frozen = false := by
    rw [← Bool.not_eq_true, hstaged.inbound]
    exact fun h => interfaceLink_inbound_ne m s t h.1
  rw [link_eq_none_iff hl]
  constructor
  · rintro ⟨h, -⟩
    exact h.resolve_left (not_suppresses rfl)
  · intro h
    exact ⟨Or.inr h, Or.inr hopen⟩

theorem relates (hmirrored : Mirrored m) (hstaged : ∀ h, (m.classAt h).Staged) (hs : s < m.size) (ht : t < m.size) :
    Relates m s t := by
  have hlockstep (r : Relation) :
      (m.classAt s).Suppresses .outbound r t ↔ (m.classAt t).Suppresses .inbound r s := by
    unfold Suppresses
    rw [hmirrored.ledger]
  by_cases hst : s = t
  · have hstay (r : Relation) : m.step (.addRelation s r t) = (m, .done) := by
      rw [step_addRelation hs ht, if_pos hst]
    have hstayInterface : m.step (.addSuperInterface s t) = (m, .done) := by
      rw [step_addSuperInterface hs ht, if_pos hst]
    refine ⟨hlockstep, fun r => ?_, ?_, fun _ h => absurd hst h, fun h => absurd hst h,
      fun _ => ⟨hstay, hstayInterface⟩⟩
    · rw [hstay]
      simp [hst, Reply.isViolation]
    · rw [hstayInterface]
      simp [hst, Reply.isViolation]
  · have hfits (r : Relation) : Link.Fits m ⟨s, r, t, r⟩ := ⟨hs, ht, hst, listed_of_eq rfl⟩
    have hfitsInterface := interfaceLink_fits hs ht hst
    refine ⟨hlockstep, fun r => ?_, ?_, fun r _ hdone => ?_, fun _ hdone => ?_, fun h => absurd h hst⟩
    · rw [step_addRelation hs ht, if_neg hst, ← Bool.not_eq_false, isViolation_ofViolation, link_eq_none_iff (hfits r),
        ← hlockstep, ← or_and_left, not_or, not_and_or, Bool.not_eq_false, Bool.not_eq_false]
      exact (and_iff_right hst).symm
    · rw [step_addSuperInterface hs ht, if_neg hst, ← Bool.not_eq_false, isViolation_ofViolation,
        link_interface_eq_none_iff hfitsInterface (hstaged t), Bool.not_eq_false]
      exact (and_iff_right hst).symm
    · rw [step_addRelation hs ht, if_neg hst, isViolation_ofViolation] at hdone
      rw [step_addRelation hs ht, if_neg hst]
      exact linked_link (hfits r) hdone
    · rw [step_addSuperInterface hs ht, if_neg hst, isViolation_ofViolation] at hdone
      rw [step_addSuperInterface hs ht, if_neg hst]
      exact linked_link hfitsInterface hdone

theorem run_relates (policy : Policy) (ops : List Operation)
    (calm : ∀ reply ∈ ((empty policy).run ops).2, reply.isViolation = false) :
    let m := ((empty policy).run ops).1
    ∀ s < m.size, ∀ t < m.size, Relates m s t := by
  intro m s hs t ht
  obtain ⟨L, hL⟩ := (run_calm calm).records ⟨_, records_empty policy⟩
  exact relates hL.mirrored (run_moves (empty policy) ops).staged hs ht

/-- `A` is associated with `B` and has its members finished. -/
def underway : List Operation :=
  let named (id : String) : Element := { attributes := { id := id, name := id, kind := .classType } }
  [.addClass (named "A") [], .addClass (named "B") [], .addRelation 0 .association 1, .finishMembers 0]

/-- The nesting of `B` in `A` meets a frozen cell, but the ledger keeps it out before. The super class, which is never
kept out, meets one too. -/
theorem run_relates_underway :
    let m := ((empty .byKind).run underway).1
    (∀ reply ∈ ((empty .byKind).run underway).2, reply.isViolation = false) ∧
      ((m.classAt 0).cell .outbound .innerClass).frozen = true ∧
      (m.step (.addRelation 0 .innerClass 1)).2.isViolation = false ∧
      (m.step (.addRelation 0 .superClass 1)).2.isViolation = true ∧
      (m.step (.addRelation 0 .throwsDependency 1)).2.isViolation = false ∧ Relates m 0 1 :=
  have calm : ∀ reply ∈ ((empty .byKind).run underway).2, reply.isViolation = false := by decide +kernel
  ⟨calm, by decide +kernel, by decide +kernel, by decide +kernel, by decide +kernel,
    run_relates .byKind underway calm 0 (by decide +kernel) 1 (by decide +kernel)⟩

end ClassModel

end ClassAtlas
