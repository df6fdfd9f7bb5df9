import ClassAtlas.Proofs.Changes
import ClassAtlas.Proofs.Mirror
import Mathlib.Data.List.Nodup

/-! Cells and ledgers hold nothing twice, and what the three checkable cells of a direction hold is in its ledger,
each target in one cell only (`run_booked`). A ledger may know more than the cells, but only where a violation came
between its note and the cell: without violations the cells share it out (`Calm.booked_perm`). -/

namespace ClassAtlas

namespace ClassNode

variable {m : ClassModel} {n n' : ClassNode} {d : Direction} {r : Relation} {t : Handle} {v : Option Violation}

/-- The targets of the checkable relations, cell by cell. -/
def checkedTargets (n : ClassNode) (d : Direction) : List Handle :=
  n.targets d .innerClass ++ n.targets d .association ++ n.targets d .dependency

/-- The cells and ledgers of a class as sets, with each checkable target in one cell and in the ledger. -/
structure Booked (n : ClassNode) : Prop where
  nodup : ∀ d r, (n.targets d r).Nodup
  seen : ∀ d r, (n.cell d r).frozen = false → (n.cell d r).seen.Perm (n.targets d r)
  ledger : ∀ d, (n.ledger d).Nodup
  noted : ∀ d r t, r.isCheckable = true → t ∈ n.targets d r → t ∈ n.ledger d
  exclusive : ∀ d r r' t, r.isCheckable = true → r'.isCheckable = true → t ∈ n.targets d r →
    t ∈ n.targets d r' → r = r'

/-- Everything a ledger knows is in a checkable cell. -/
def Balanced (n : ClassNode) : Prop :=
  ∀ d, ∀ t ∈ n.ledger d, ∃ r, r.isCheckable = true ∧ t ∈ n.targets d r

theorem booked_new (h : Handle) (e : Element) (ps : List TypeRef) :
    Booked { handle := h, element := e, typeParameters := ps } := by
  constructor <;> simp [targets, cell, ClassNode.ledger]

theorem balanced_new (h : Handle) (e : Element) (ps : List TypeRef) :
    Balanced { handle := h, element := e, typeParameters := ps } := by
  simp [Balanced, ClassNode.ledger]

theorem nodup_ledger_note (hs : ¬ n.Suppresses d r t) (hn : ∀ d, (n.ledger d).Nodup) (d' : Direction) :
    ((n.note d r t).ledger d').Nodup := by
  unfold note
  split
  · rename_i hr
    have hfresh : t ∉ n.ledger d := fun ht => hs ⟨hr, ht⟩
    by_cases hd : d' = d
    · subst hd
      have hledger : ∀ a ∈ n.ledger d', ¬a = t := fun a ha e => hfresh (e ▸ ha)
      simpa [ClassNode.ledger, EnumMap.get_modify, List.nodup_append] using ⟨hn d', hledger⟩
    · simpa [ClassNode.ledger, EnumMap.get_modify, hd] using hn d'
  · exact hn d'

theorem Booked.note (hn : n.Booked) (hs : ¬ n.Suppresses d r t) : (n.note d r t).Booked where
  nodup d' r' := by
    rw [targets, cell_note]
    exact hn.nodup d' r'
  seen d' r' := by
    rw [targets, cell_note]
    exact hn.seen d' r'
  ledger := nodup_ledger_note hs hn.ledger
  noted d' r' x hr hx := by
    rw [targets, cell_note] at hx
    exact mem_ledger_note.2 (Or.inl (hn.noted d' r' x hr hx))
  exclusive d' r1 r2 x hr1 hr2 hx1 hx2 := by
    rw [targets, cell_note] at hx1 hx2
    exact hn.exclusive d' r1 r2 x hr1 hr2 hx1 hx2

/-- A target that the ledger did not know is in no checkable cell yet. -/
theorem Booked.record (hn : n.Booked) (d : Direction) (r : Relation) (t : Handle) :
    (n.record d r t).1.Booked := by
  rcases record_cases n d r t with ⟨-, e⟩ | ⟨hs, -, e⟩ | ⟨hs, hopen, e⟩ <;> rw [e]
  · exact hn
  · exact hn.note hs
  · have hnote := hn.note hs
    have hfresh (r' : Relation) (hr : r.isCheckable = true) (hr' : r'.isCheckable = true) :
        t ∉ n.targets d r' := fun ht => hs ⟨hr, hn.noted d r' t hr' ht⟩
    have hopen' : ((n.note d r t).cell d r).frozen = false := by rwa [cell_note]
    refine ⟨fun d' r' => ?_, fun d' r' => ?_, hnote.ledger, fun d' r' x hr' hx => ?_,
      fun d' r1 r2 x hr1 hr2 hx1 hx2 => ?_⟩
    · rw [targets, cell_put]
      split
      · exact Cell.nodup_insert hopen' (hnote.nodup d r) t
      · exact hnote.nodup d' r'
    · rw [targets, cell_put]
      split
      · intro _
        exact Cell.seen_insert_perm (hnote.seen d r hopen') t
      · exact hnote.seen d' r'
    · rw [mem_targets_put] at hx
      rcases hx with hx | ⟨rfl, rfl, rfl⟩
      · exact hnote.noted d' r' x hr' hx
      · exact mem_ledger_note.2 (Or.inr ⟨rfl, hr', rfl⟩)
    · rw [mem_targets_put, targets, cell_note] at hx1 hx2
      rcases hx1 with hx1 | ⟨rfl, rfl, rfl⟩ <;> rcases hx2 with hx2 | ⟨hd, rfl, hx⟩
      · exact hn.exclusive d' r1 r2 x hr1 hr2 hx1 hx2
      · subst hd; subst hx
        exact absurd hx1 (hfresh r1 hr2 hr1)
      · exact absurd hx2 (hfresh r2 hr1 hr2)
      · rfl

/-- Freezing keeps the targets of a cell. -/
theorem targets_perm (hcell : n'.cell d r = n.cell d r ∨
    ((n.cell d r).frozen = false ∧ n'.cell d r = (n.cell d r).freeze m.sortHandles)) :
    (n'.targets d r).Perm (n.targets d r) := by
  rcases hcell with e | ⟨-, e⟩ <;> rw [targets, e]
  · exact List.Perm.refl _
  · exact sortBy_perm m.compare _

theorem Booked.change (hn : n.Booked) (hchange : m.Change n n' v) : n'.Booked := by
  rcases hchange.cells_cases with ⟨d, r, t, rfl, -⟩ | ⟨hledger, hcell⟩
  · exact hn.record d r t
  · have hperm (d : Direction) (r : Relation) := targets_perm (hcell d r)
    refine ⟨fun d r => (hperm d r).nodup_iff.2 (hn.nodup d r), fun d r hopen => ?_, fun d => ?_,
      fun d r t hr ht => ?_, fun d r r' t hr hr' ht ht' => ?_⟩
    · rcases hcell d r with e | ⟨-, e⟩
      · rw [targets, e]
        exact hn.seen d r (e ▸ hopen)
      · rw [e] at hopen
        cases hopen
    · rw [hledger]
      exact hn.ledger d
    · rw [hledger]
      exact hn.noted d r t hr ((hperm d r).mem_iff.1 ht)
    · exact hn.exclusive d r r' t hr hr' ((hperm d r).mem_iff.1 ht) ((hperm d r').mem_iff.1 ht')

/-- Without a violation the note in the ledger is followed by the entry in the cell. -/
theorem Balanced.change (hn : n.Balanced) (hchange : m.Change n n' none) : n'.Balanced := by
  intro d' x hx
  rcases hchange.cells_cases with ⟨d, r, t, rfl, hv⟩ | ⟨hledger, hcell⟩
  · rw [mem_ledger_record] at hx
    by_cases hold : x ∈ n.ledger d'
    · obtain ⟨r', hr', hx'⟩ := hn d' x hold
      exact ⟨r', hr', (mem_targets_record hv.symm).2 (Or.inl hx')⟩
    · obtain ⟨rfl, hr, rfl⟩ := hx.resolve_left hold
      exact ⟨r, hr, (mem_targets_record hv.symm).2 (Or.inr ⟨fun hs => hold hs.2, rfl, rfl, rfl⟩)⟩
  · rw [hledger] at hx
    obtain ⟨r, hr, hx'⟩ := hn d' x hx
    refine ⟨r, hr, ?_⟩
    exact (targets_perm (hcell d' r)).mem_iff.2 hx'

theorem isCheckable_iff : r.isCheckable = true ↔ r = .innerClass ∨ r = .association ∨ r = .dependency := by
  cases r <;> simp [Relation.isCheckable]

theorem mem_checkedTargets :
    t ∈ n.checkedTargets d ↔ ∃ r, r.isCheckable = true ∧ t ∈ n.targets d r := by
  simp [checkedTargets, isCheckable_iff]

theorem Booked.nodup_checkedTargets (hn : n.Booked) (d : Direction) : (n.checkedTargets d).Nodup := by
  have hapart {r r' : Relation} (hr : r.isCheckable = true) (hr' : r'.isCheckable = true) (hne : r ≠ r') :
      ∀ a ∈ n.targets d r, ∀ b ∈ n.targets d r', a ≠ b := by
    rintro a ha _ hb rfl
    exact hne (hn.exclusive d r r' a hr hr' ha hb)
  rw [checkedTargets, List.append_assoc]
  refine List.nodup_append.2 ⟨hn.nodup d _, List.nodup_append.2 ⟨hn.nodup d _, hn.nodup d _, ?_⟩, ?_⟩
  · exact hapart rfl rfl (by decide)
  · intro a ha b hb
    rcases List.mem_append.1 hb with hb | hb
    · exact hapart rfl rfl (by decide) a ha b hb
    · exact hapart rfl rfl (by decide) a ha b hb

theorem Booked.perm_checkedTargets (hn : n.Booked) (hbalanced : n.Balanced) (d : Direction) :
    (n.ledger d).Perm (n.checkedTargets d) := by
  rw [List.perm_ext_iff_of_nodup (hn.ledger d) (hn.nodup_checkedTargets d)]
  intro t
  rw [mem_checkedTargets]
  exact ⟨hbalanced d t, fun ⟨r, hr, ht⟩ => hn.noted d r t hr ht⟩

end ClassNode

namespace ClassModel

open ClassNode

variable {m m' : ClassModel}

theorem Moves.booked {policy : Policy} (hmoves : Moves (empty policy) m) (h : Handle) : (m.classAt h).Booked :=
  hmoves.nodes booked_new (fun hchange hn => hn.change hchange) h

theorem Calm.booked_perm {policy : Policy} (hcalm : Calm (empty policy) m) (h : Handle) (d : Direction) :
    ((m.classAt h).ledger d).Perm ((m.classAt h).checkedTargets d) := by
  have hbalanced : (m.classAt h).Balanced := hcalm.nodes balanced_new (fun hchange hn => hn.change hchange) h
  exact (hcalm.moves.booked h).perm_checkedTargets hbalanced d

/-- What the cells and ledgers of a class hold: nothing twice, in an open cell what it has seen, in the checkable
cells what the ledger knows, each in one of them. -/
structure Bookkeeping (n : ClassNode) : Prop where
  nodup : ∀ d r, (n.targets d r).Nodup
  seen : ∀ d r, (n.cell d r).frozen = false →
    (n.cell d r).seen.Nodup ∧ ∀ t, t ∈ (n.cell d r).seen ↔ t ∈ n.targets d r
  exclusive : ∀ d, (n.checkedTargets d).Nodup
  noted : ∀ d, n.checkedTargets d ⊆ n.ledger d

/-- The ledger is what the three cells hold, so it counts as many classes as they do together. -/
structure Balance (n : ClassNode) : Prop where
  ledger : ∀ d t, t ∈ n.ledger d ↔
    t ∈ n.targets d .innerClass ∨ t ∈ n.targets d .association ∨ t ∈ n.targets d .dependency
  length : ∀ d, (n.ledger d).length =
    (n.targets d .innerClass).length + (n.targets d .association).length + (n.targets d .dependency).length

theorem run_booked (policy : Policy) (ops : List Operation) :
    (∀ h, Bookkeeping (((empty policy).run ops).1.classAt h)) ∧
    ((∀ reply ∈ ((empty policy).run ops).2, reply.isViolation = false) →
      ∀ h, Balance (((empty policy).run ops).1.classAt h)) := by
  refine ⟨fun h => ?_, fun calm h => ?_⟩
  · have hn := (run_moves (empty policy) ops).booked h
    refine ⟨hn.nodup, fun d r hopen => ?_, hn.nodup_checkedTargets, fun d t ht => ?_⟩
    · have hseen := hn.seen d r hopen
      exact ⟨hseen.nodup_iff.2 (hn.nodup d r), fun t => hseen.mem_iff⟩
    · obtain ⟨r, hr, ht⟩ := mem_checkedTargets.1 ht
      exact hn.noted d r t hr ht
  · have hperm := (run_calm calm).booked_perm h
    refine ⟨fun d t => ?_, fun d => ?_⟩
    · rw [(hperm d).mem_iff, checkedTargets, List.mem_append, List.mem_append, or_assoc]
    · rw [(hperm d).length_eq, checkedTargets, List.length_append, List.length_append]

theorem run_booked_lateInterface :
    (∀ reply ∈ ((empty .byKind).run lateInterface).2, reply.isViolation = false) ∧
      ∀ h, Balance (((empty .byKind).run lateInterface).1.classAt h) :=
  have calm : ∀ reply ∈ ((empty .byKind).run lateInterface).2, reply.isViolation = false := by
    decide +kernel
  ⟨calm, (run_booked .byKind lateInterface).2 calm⟩

end ClassModel

end ClassAtlas
