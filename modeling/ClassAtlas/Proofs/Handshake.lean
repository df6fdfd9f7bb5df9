import ClassAtlas.Proofs.Ledgers
import ClassAtlas.Proofs.SuperTypes
import ClassAtlas.Summary
import Mathlib.Algebra.BigOperators.Group.Finset.Piecewise
import Mathlib.Algebra.BigOperators.Group.Finset.Sigma
import Mathlib.Algebra.Ring.Nat

/-! Counted over all classes, what the classes use is what they are used by, and as many children as parents are
listed, except that a class which extends an interface and realizes it as well is one child with two parents
(`run_handshake`). Both sides of a count are numbers of pairs of classes, taken by the one class or by the other. -/

namespace ClassAtlas

namespace ClassModel

open ClassNode

/-- One of the counts of the summary, added up over all classes. -/
def sumOver (m : ClassModel) (count : RelationSummary → Nat) : Nat := (m.classes.map fun n => count n.summary).sum

/-- The number of pairs of classes in a relation. -/
def pairs (m : ClassModel) (P : Handle → Handle → Prop) [∀ s t, Decidable (P s t)] : Nat :=
  ((Finset.range m.size ×ˢ Finset.range m.size).filter fun p => P p.1 p.2).card

/-- The class `s` extends the class `t` and realizes it as well, which makes it one subclass of `t`. -/
def Doubled (m : ClassModel) (s t : Handle) : Prop :=
  (m.classAt s).isInterface = false ∧ t ∈ (m.classAt s).targets .outbound .superClass ∧
    t ∈ (m.classAt s).targets .outbound .superInterface

instance (m : ClassModel) (s t : Handle) : Decidable (m.Doubled s t) := inferInstanceAs (Decidable (_ ∧ _ ∧ _))

variable {m : ClassModel} {P Q : Handle → Handle → Prop} [∀ s t, Decidable (P s t)] [∀ s t, Decidable (Q s t)]

theorem pairs_congr (h : ∀ s t, P s t ↔ Q s t) : m.pairs P = m.pairs Q :=
  congrArg Finset.card (Finset.filter_congr fun p _ => h p.1 p.2)

theorem pairs_or_add_and : m.pairs (fun s t => P s t ∨ Q s t) + m.pairs (fun s t => P s t ∧ Q s t) =
    m.pairs P + m.pairs Q := by
  unfold pairs
  rw [Finset.filter_or, Finset.filter_and]
  exact Finset.card_union_add_card_inter _ _

/-- Pairs in `L` whose source is special go by themselves; the others go together with those in `E`, where a pair in
both counts once. -/
theorem pairs_merge (special : Handle → Bool) :
    m.pairs (fun s t => P s t ∨ (special s = false ∧ Q s t)) + m.pairs (fun s t => special s = true ∧ Q s t) +
      m.pairs (fun s t => P s t ∧ (special s = false ∧ Q s t)) = m.pairs P + m.pairs Q := by
  have hmerged := pairs_or_add_and (m := m) (P := P) (Q := fun s t => special s = false ∧ Q s t)
  have hparts := pairs_or_add_and (m := m) (P := fun s t => special s = false ∧ Q s t)
    (Q := fun s t => special s = true ∧ Q s t)
  have hall : (m.pairs fun s t => (special s = false ∧ Q s t) ∨ (special s = true ∧ Q s t)) = m.pairs Q :=
    pairs_congr fun s t => by cases special s <;> simp
  have hnone : (m.pairs fun s t => (special s = false ∧ Q s t) ∧ (special s = true ∧ Q s t)) = 0 := by
    rw [pairs, Finset.card_eq_zero, Finset.filter_eq_empty_iff]
    rintro p - ⟨⟨hno, -⟩, hyes, -⟩
    rw [hno] at hyes
    cases hyes
  omega

/-- A list without repetition has as many entries as there are classes in it. -/
theorem length_eq_sum {l : List Handle} (hnodup : l.Nodup) (hlt : ∀ x ∈ l, x < m.size) :
    l.length = ∑ x ∈ Finset.range m.size, if x ∈ l then 1 else 0 := by
  rw [← List.toFinset_card_of_nodup hnodup, ← Finset.card_filter]
  congr 1
  ext x
  simpa using hlt x

/-- Pairs counted by their sources. -/
theorem sum_length_sources {f : Handle → List Handle} (hnodup : ∀ h, (f h).Nodup)
    (hlt : ∀ h, ∀ x ∈ f h, x < m.size) :
    ∑ h ∈ Finset.range m.size, (f h).length = m.pairs fun s t => t ∈ f s := by
  rw [pairs, Finset.card_filter, Finset.sum_product]
  exact Finset.sum_congr rfl fun s _ => length_eq_sum (hnodup s) (hlt s)

/-- Pairs counted by their targets. -/
theorem sum_length_targets {f : Handle → List Handle} (hnodup : ∀ h, (f h).Nodup)
    (hlt : ∀ h, ∀ x ∈ f h, x < m.size) :
    ∑ h ∈ Finset.range m.size, (f h).length = m.pairs fun s t => s ∈ f t := by
  rw [pairs, Finset.card_filter, Finset.sum_product_right]
  exact Finset.sum_congr rfl fun t _ => length_eq_sum (hnodup t) (hlt t)

theorem sumOver_eq (m : ClassModel) (count : RelationSummary → Nat) :
    m.sumOver count = ∑ h ∈ Finset.range m.size, count (m.classAt h).summary := by
  rw [sumOver, classes_eq, List.map_map]
  rfl

section Count

variable (hm : Closed m) (hbooked : ∀ h, (m.classAt h).Booked)

include hm hbooked

theorem sum_count_outbound (r : Relation) : ∑ h ∈ Finset.range m.size, (m.classAt h).count .outbound r =
    m.pairs fun s t => t ∈ (m.classAt s).targets .outbound r :=
  sum_length_sources (fun h => (hbooked h).nodup .outbound r) fun h x hx => (hm.targets h .outbound r x hx).1

theorem sum_count_inbound (r : Relation) : ∑ h ∈ Finset.range m.size, (m.classAt h).count .inbound r =
    m.pairs fun s t => s ∈ (m.classAt t).targets .inbound r :=
  sum_length_targets (fun h => (hbooked h).nodup .inbound r) fun h x hx => (hm.targets h .inbound r x hx).1

theorem sum_ledger (hmirrored : Mirrored m) : ∑ h ∈ Finset.range m.size, ((m.classAt h).ledger .outbound).length =
    ∑ h ∈ Finset.range m.size, ((m.classAt h).ledger .inbound).length := by
  rw [sum_length_sources (fun h => (hbooked h).ledger .outbound) fun h x hx => (hm.ledger h .outbound x hx).1,
    sum_length_targets (fun h => (hbooked h).ledger .inbound) fun h x hx => (hm.ledger h .inbound x hx).1]
  exact pairs_congr hmirrored.ledger

theorem sum_count_same (hmirrored : Mirrored m) {r : Relation} (hclass : r ≠ .superClass)
    (hinterface : r ≠ .superInterface) : ∑ h ∈ Finset.range m.size, (m.classAt h).count .outbound r =
      ∑ h ∈ Finset.range m.size, (m.classAt h).count .inbound r := by
  rw [sum_count_outbound hm hbooked, sum_count_inbound hm hbooked]
  exact pairs_congr fun s t => hmirrored.same s t r hclass hinterface

theorem sumOver_uses (hmirrored : Mirrored m) : m.sumOver (·.uses) = m.sumOver (·.usedBy) := by
  simp only [sumOver_eq, summary, usage, Finset.sum_add_distrib]
  rw [sum_ledger hm hbooked hmirrored, sum_count_same hm hbooked hmirrored (by decide) (by decide),
    sum_count_same hm hbooked hmirrored (by decide) (by decide)]

/-- Of the classes that list a super interface, the interfaces are its sub-interfaces and the others its subclasses,
next to those that extend it. -/
theorem sumOver_children (hmirrored : Mirrored m) (hrealized : Realized m) (hsub : SubInterfaces m) :
    m.sumOver (·.children) + m.pairs m.Doubled = m.sumOver (·.parents) := by
  simp only [sumOver_eq, summary, Finset.sum_add_distrib]
  rw [sum_count_outbound hm hbooked, sum_count_outbound hm hbooked, sum_count_inbound hm hbooked,
    sum_count_inbound hm hbooked]
  have hsubclasses : (m.pairs fun s t => s ∈ (m.classAt t).targets .inbound .superClass) =
      m.pairs fun s t => t ∈ (m.classAt s).targets .outbound .superClass ∨
        ((m.classAt s).isInterface = false ∧ t ∈ (m.classAt s).targets .outbound .superInterface) :=
    pairs_congr hrealized
  have hsubinterfaces : (m.pairs fun s t => s ∈ (m.classAt t).targets .inbound .superInterface) =
      m.pairs fun s t => (m.classAt s).isInterface = true ∧ t ∈ (m.classAt s).targets .outbound .superInterface := by
    refine pairs_congr fun s t => ⟨fun hs => ⟨hsub s t hs, hmirrored.of_superInterface s t hs⟩, fun ⟨hs, ht⟩ => ?_⟩
    rcases hmirrored.superInterface s t ht with hin | ⟨hno, -⟩
    · exact hin
    · rw [hs] at hno
      cases hno
  have hdoubled : m.pairs m.Doubled = m.pairs fun s t => t ∈ (m.classAt s).targets .outbound .superClass ∧
      ((m.classAt s).isInterface = false ∧ t ∈ (m.classAt s).targets .outbound .superInterface) :=
    pairs_congr fun s t => and_left_comm
  rw [hsubclasses, hsubinterfaces, hdoubled]
  exact pairs_merge fun s => (m.classAt s).isInterface

end Count

theorem run_handshake (policy : Policy) (ops : List Operation)
    (calm : ∀ reply ∈ ((empty policy).run ops).2, reply.isViolation = false) :
    let m := ((empty policy).run ops).1
    m.sumOver (·.uses) = m.sumOver (·.usedBy) ∧
      ((∀ op ∈ ops, op.isPlainSuperInterface = false) →
        m.sumOver (·.children) + m.pairs m.Doubled = m.sumOver (·.parents)) := by
  intro m
  have hm := (run_wellFormed policy ops).toClosed
  have hbooked := (run_calm calm).moves.booked
  obtain ⟨L, hL⟩ := (run_calm calm).records ⟨_, records_empty policy⟩
  refine ⟨sumOver_uses hm hbooked hL.mirrored, fun proper => ?_⟩
  exact sumOver_children hm hbooked hL.mirrored (run_realized policy proper) (run_subInterfaces policy proper)

/-- The class `A` extends the interface `I` and realizes it as well, the interface `J` extends `I` both ways, and `B`
is used by `A` through a checkable relation and one that is not. -/
def doubleHeir : List Operation :=
  let named (id : String) (modifiers : List Modifier) : Element :=
    { attributes := { id := id, name := id, kind := .classType, modifiers := .ofList modifiers } }
  [.addClass (named "A" []) [], .addClass (named "I" [.interface]) [], .addClass (named "J" [.interface]) [],
    .addClass (named "B" []) [], .addRelation 0 .superClass 1, .addSuperInterface 0 1, .addRelation 2 .superClass 1,
    .addSuperInterface 2 1, .addRelation 0 .association 3, .addRelation 0 .dependency 3,
    .addRelation 0 .throwsDependency 3, .finishRelations 0, .finishAllMembers, .finishAllRelations]

theorem run_handshake_doubleHeir :
    let m := ((empty .byKind).run doubleHeir).1
    (∀ reply ∈ ((empty .byKind).run doubleHeir).2, reply.isViolation = false) ∧
      (∀ op ∈ doubleHeir, op.isPlainSuperInterface = false) ∧
      m.sumOver (·.uses) = m.sumOver (·.usedBy) ∧ m.sumOver (·.parents) = 4 ∧ m.pairs m.Doubled = 1 ∧
      m.sumOver (·.children) + m.pairs m.Doubled = m.sumOver (·.parents) :=
  have calm : ∀ reply ∈ ((empty .byKind).run doubleHeir).2, reply.isViolation = false := by decide +kernel
  have proper : ∀ op ∈ doubleHeir, op.isPlainSuperInterface = false := by decide +kernel
  have hshake := run_handshake .byKind doubleHeir calm
  ⟨calm, proper, hshake.1, by decide +kernel, by decide +kernel, hshake.2 proper⟩

end ClassModel

end ClassAtlas
