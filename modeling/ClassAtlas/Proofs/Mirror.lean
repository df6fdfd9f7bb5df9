import ClassAtlas.Proofs.Links

/-! Both ends of a relation agree after every run without violations: what a class lists outbound is listed
inbound on the other side, under the same relation or, for a class that realizes an interface, under the
super class relation. -/

namespace ClassAtlas

namespace ClassModel

structure Mirrored (m : ClassModel) : Prop where
  same : ∀ s t r, r ≠ .superClass → r ≠ .superInterface →
    (t ∈ (m.classAt s).targets .outbound r ↔ s ∈ (m.classAt t).targets .inbound r)
  ledger : ∀ s t, t ∈ (m.classAt s).ledger .outbound ↔ s ∈ (m.classAt t).ledger .inbound
  superClass : ∀ s t, t ∈ (m.classAt s).targets .outbound .superClass →
    s ∈ (m.classAt t).targets .inbound .superClass
  of_superClass : ∀ s t, s ∈ (m.classAt t).targets .inbound .superClass →
    t ∈ (m.classAt s).targets .outbound .superClass ∨
      ((m.classAt s).isInterface = false ∧ t ∈ (m.classAt s).targets .outbound .superInterface)
  superInterface : ∀ s t, t ∈ (m.classAt s).targets .outbound .superInterface →
    s ∈ (m.classAt t).targets .inbound .superInterface ∨
      ((m.classAt s).isInterface = false ∧ s ∈ (m.classAt t).targets .inbound .superClass)
  of_superInterface : ∀ s t, s ∈ (m.classAt t).targets .inbound .superInterface →
    t ∈ (m.classAt s).targets .outbound .superInterface
  apart : ∀ s d r, s ∉ (m.classAt s).targets d r
  ledger_apart : ∀ s d, s ∉ (m.classAt s).ledger d

variable {m : ClassModel} {L : Link → Prop} {s t : Handle} {o i : Relation}

/-- Only the two super type relations of a link can differ. -/
theorem Records.listed (h : Records m L) (hl : L ⟨s, o, t, i⟩) :
    i = o ∨ (o = .superInterface ∧ i = .superClass ∧ (m.classAt s).isInterface = false) :=
  (h.fits _ hl).listed

theorem Records.mirrored (h : Records m L) : Mirrored m where
  same s t r hc hi := by
    rw [h.outbound, h.inbound]
    constructor
    · rintro ⟨i, hl⟩
      rcases h.listed hl with rfl | ⟨ho, -, -⟩
      exacts [⟨_, hl⟩, absurd ho hi]
    · rintro ⟨o, hl⟩
      rcases h.listed hl with rfl | ⟨-, hi', -⟩
      exacts [⟨_, hl⟩, absurd hi' hc]
  ledger s t := by rw [h.ledgerOut, h.ledgerIn]
  superClass s t ht := by
    obtain ⟨i, hl⟩ := (h.outbound s _ t).1 ht
    rcases h.listed hl with rfl | ⟨ho, -, -⟩
    exacts [(h.inbound s _ t).2 ⟨_, hl⟩, by cases ho]
  of_superClass s t hs := by
    obtain ⟨o, hl⟩ := (h.inbound s _ t).1 hs
    rcases h.listed hl with rfl | ⟨rfl, -, hint⟩
    exacts [Or.inl ((h.outbound s _ t).2 ⟨_, hl⟩), Or.inr ⟨hint, (h.outbound s _ t).2 ⟨_, hl⟩⟩]
  superInterface s t ht := by
    obtain ⟨i, hl⟩ := (h.outbound s _ t).1 ht
    rcases h.listed hl with rfl | ⟨-, rfl, hint⟩
    exacts [Or.inl ((h.inbound s _ t).2 ⟨_, hl⟩), Or.inr ⟨hint, (h.inbound s _ t).2 ⟨_, hl⟩⟩]
  of_superInterface s t hs := by
    obtain ⟨o, hl⟩ := (h.inbound s _ t).1 hs
    rcases h.listed hl with rfl | ⟨-, hi, -⟩
    exacts [(h.outbound s _ t).2 ⟨_, hl⟩, by cases hi]
  apart s d r hs := by
    cases d with
    | outbound => obtain ⟨i, hl⟩ := (h.outbound s r s).1 hs; exact (h.fits _ hl).apart rfl
    | inbound => obtain ⟨o, hl⟩ := (h.inbound s r s).1 hs; exact (h.fits _ hl).apart rfl
  ledger_apart s d hs := by
    cases d with
    | outbound => obtain ⟨o, i, hl, -⟩ := (h.ledgerOut s s).1 hs; exact (h.fits _ hl).apart rfl
    | inbound => obtain ⟨o, i, hl, -⟩ := (h.ledgerIn s s).1 hs; exact (h.fits _ hl).apart rfl

/-- Refused operations are allowed in the run; only violations are not. -/
theorem run_mirrored (policy : Policy) (ops : List Operation)
    (calm : ∀ reply ∈ ((empty policy).run ops).2, reply.isViolation = false) :
    Mirrored ((empty policy).run ops).1 := by
  obtain ⟨L, hL⟩ := (run_calm calm).records ⟨_, records_empty policy⟩
  exact hL.mirrored

/-- A class and an interface, and the class `A` that extends the one and realizes the other. The dependency
comes after the association, the interface is registered once the members of the others are finished, and one
operation is refused. -/
def lateInterface : List Operation :=
  let named (id : String) (modifiers : List Modifier) : Element :=
    { attributes := { id := id, name := id, kind := .classType, modifiers := .ofList modifiers } }
  [.addClass (named "A" []) [], .addClass (named "B" []) [], .addRelation 0 .superClass 1,
    .addRelation 0 .association 1, .addRelation 0 .dependency 1, .addClass (named "I" [.interface]) [],
    .addSuperInterface 0 2, .finishMembers 0, .finishRelations 0, .finishAllMembers,
    .addClass (named "J" [.interface]) [], .addSuperInterface 3 2, .finishAllMembers,
    .finishAllRelations]

theorem run_mirrored_lateInterface :
    (∀ reply ∈ ((empty .byKind).run lateInterface).2, reply.isViolation = false) ∧
      Mirrored ((empty .byKind).run lateInterface).1 :=
  have calm : ∀ reply ∈ ((empty .byKind).run lateInterface).2, reply.isViolation = false := by
    decide +kernel
  ⟨calm, run_mirrored .byKind lateInterface calm⟩

end ClassModel

end ClassAtlas
