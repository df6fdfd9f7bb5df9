import ClassAtlas.Proofs.Ledgers

/-! A relation is recorded at its source first, so what a class lists inbound its source should list outbound. That
holds as long as no ledger was left with a note whose cell turned out frozen: such a note suppresses a later relation
at the source, while the target, which has its own ledger, still takes it. Violations of any other kind do no harm
(`run_backed`). -/

namespace ClassAtlas

/-- The outbound ledger noted a target, and then the slot was found frozen. -/
def Violation.leavesNote : Violation → Bool
  | frozenSlot (.outbound, r) _ => r.isCheckable
  | _ => false

def Reply.leavesNote : Reply → Bool
  | violated v => v.leavesNote
  | _ => false

namespace ClassNode

variable {m : ClassModel} {n n' : ClassNode} {v : Option Violation}

/-- The outbound ledger knows nothing that is not in a checkable cell. -/
def Tidy (n : ClassNode) : Prop := ∀ t ∈ n.ledger .outbound, t ∈ n.checkedTargets .outbound

theorem tidy_new (h : Handle) (e : Element) (ps : List TypeRef) :
    Tidy { handle := h, element := e, typeParameters := ps } := by
  simp [Tidy, ClassNode.ledger]

/-- A violation that comes before the note or on the inbound side strands nothing. -/
theorem Tidy.change (hn : n.Tidy) (hchange : m.Change n n' v) (hv : ∀ w, v = some w → w.leavesNote = false) :
    n'.Tidy := by
  intro x hx
  rw [mem_checkedTargets]
  rcases hchange.cells_cases with ⟨d, r, t, rfl, rfl⟩ | ⟨hledger, hcell⟩
  · by_cases hold : x ∈ n.ledger .outbound
    · obtain ⟨r', hr', hx'⟩ := mem_checkedTargets.1 (hn x hold)
      exact ⟨r', hr', mem_targets_record_of_mem hx'⟩
    · obtain ⟨rfl, hr, rfl⟩ := (mem_ledger_record.1 hx).resolve_left hold
      rcases record_cases n .outbound r x with ⟨hs, -⟩ | ⟨-, -, e⟩ | ⟨-, -, e⟩
      · exact absurd hs.2 hold
      · have hfalse : r.isCheckable = false := hv (.frozenSlot (.outbound, r) n.id) (by rw [e])
        rw [hr] at hfalse
        cases hfalse
      · refine ⟨r, hr, ?_⟩
        rw [e]
        exact mem_targets_put.2 (Or.inr ⟨rfl, rfl, rfl⟩)
  · rw [hledger] at hx
    obtain ⟨r, hr, hx'⟩ := mem_checkedTargets.1 (hn x hx)
    exact ⟨r, hr, (targets_perm (hcell .outbound r)).mem_iff.2 hx'⟩

end ClassNode

namespace ClassModel

open ClassNode

variable {m m' : ClassModel} {l : Link} {s t : Handle} {r : Relation}

/-- Every relation apart from super types that a class lists inbound is listed by its source. -/
def Backed (m : ClassModel) : Prop :=
  ∀ s t r, r ≠ .superClass → r ≠ .superInterface → s ∈ (m.classAt t).targets .inbound r →
    t ∈ (m.classAt s).targets .outbound r

/-- The outbound ledger of `s` knows `t`, but none of the cells that it watches holds it. -/
def Stranded (m : ClassModel) (s t : Handle) : Prop :=
  t ∈ (m.classAt s).ledger .outbound ∧ t ∉ (m.classAt s).checkedTargets .outbound

/-- Half a relation is there only where a note is stranded; a target that `met` its source takes no second one. -/
structure Halved (m : ClassModel) : Prop where
  backed : ∀ s t r, r ≠ .superClass → r ≠ .superInterface → s ∈ (m.classAt t).targets .inbound r →
    t ∈ (m.classAt s).targets .outbound r ∨ (r.isCheckable = true ∧ m.Stranded s t)
  met : ∀ s t r, r.isCheckable = true → t ∈ (m.classAt s).targets .outbound r →
    s ∈ (m.classAt t).ledger .inbound

theorem halved_empty (policy : Policy) : Halved (empty policy) := by
  constructor <;> simp

theorem Agree.stranded_iff (ha : Agree m m') : m'.Stranded s t ↔ m.Stranded s t := by
  simp only [Stranded, mem_checkedTargets, ha.ledger, ha.targets]

theorem Halved.agree (hm : Halved m) (ha : Agree m m') : Halved m' where
  backed s t r hc hi hs := by
    rw [ha.targets, ha.stranded_iff]
    exact hm.backed s t r hc hi ((ha.targets ..).1 hs)
  met s t r hr ht := (ha.ledger ..).2 (hm.met s t r hr ((ha.targets ..).1 ht))

theorem mem_ledger_link (hl : l.Fits m) {x y : Handle} {d : Direction} (hy : y ∈ (m.classAt x).ledger d) :
    y ∈ ((m.link l).1.classAt x).ledger d := by
  have hsource : y ∈ ((m.record l.source .outbound l.outbound l.target).1.classAt x).ledger d :=
    (mem_ledger_record hl.source_lt).2 (Or.inl hy)
  rcases link_cases m l with ⟨-, e⟩ | ⟨-, e⟩ <;> rw [e]
  · exact hsource
  · exact (mem_ledger_record (target_lt_record hl)).2 (Or.inl hsource)

theorem mem_targets_link_of_mem (hl : l.Fits m) {x y : Handle} {d : Direction}
    (hy : y ∈ (m.classAt x).targets d r) : y ∈ ((m.link l).1.classAt x).targets d r := by
  have hsource : y ∈ ((m.record l.source .outbound l.outbound l.target).1.classAt x).targets d r :=
    mem_targets_record_of_mem hl.source_lt hy
  rcases link_cases m l with ⟨-, e⟩ | ⟨-, e⟩ <;> rw [e]
  · exact hsource
  · exact mem_targets_record_of_mem (target_lt_record hl) hsource

/-- The target has no part in what its source lists. -/
theorem mem_outbound_link (hl : l.Fits m) (hv : (m.record l.source .outbound l.outbound l.target).2 = none) :
    t ∈ ((m.link l).1.classAt s).targets .outbound r ↔ t ∈ (m.classAt s).targets .outbound r ∨
      (¬ (m.classAt l.source).Suppresses .outbound l.outbound l.target ∧ s = l.source ∧ r = l.outbound ∧
        t = l.target) := by
  obtain ⟨hne, -⟩ | ⟨-, e⟩ := link_cases m l
  · exact absurd hv hne
  · rw [e, targets_of_record_ne (target_lt_record hl) (by simp), mem_targets_record hl.source_lt hv]
    simp

/-- A target takes its side of a link, unless its own ledger keeps the source out. -/
theorem mem_inbound_of_link (hl : l.Fits m) (hs : s ∈ ((m.link l).1.classAt t).targets .inbound r) :
    s ∈ (m.classAt t).targets .inbound r ∨
      ((m.record l.source .outbound l.outbound l.target).2 = none ∧
        ¬ (m.classAt l.target).Suppresses .inbound l.inbound l.source ∧ t = l.target ∧ r = l.inbound ∧
        s = l.source) := by
  have hsource : ((m.record l.source .outbound l.outbound l.target).1.classAt t).targets .inbound r =
      (m.classAt t).targets .inbound r := targets_of_record_ne hl.source_lt (by simp)
  have htarget : (m.record l.source .outbound l.outbound l.target).1.classAt l.target = m.classAt l.target := by
    rw [classAt_record hl.source_lt, if_neg (Ne.symm hl.apart)]
  rcases link_cases m l with ⟨-, e⟩ | ⟨hv, e⟩ <;> rw [e] at hs
  · exact Or.inl (hsource ▸ hs)
  · rcases mem_targets_of_record (target_lt_record hl) hs with hold | ⟨hfree, rfl, -, rfl, rfl⟩
    · exact Or.inl (hsource ▸ hold)
    · exact Or.inr ⟨hv, htarget ▸ hfree, rfl, rfl, rfl⟩

/-- What its outbound ledger keeps out a source does not come to list. -/
theorem Stranded.link (hst : m.Stranded s t) (hl : l.Fits m) : (m.link l).1.Stranded s t := by
  obtain ⟨hledger, hcells⟩ := hst
  refine ⟨mem_ledger_link hl hledger, fun ht => ?_⟩
  obtain ⟨r, hr, ht⟩ := mem_checkedTargets.1 ht
  have hfree : t ∉ (m.classAt s).targets .outbound r := fun hold => hcells (mem_checkedTargets.2 ⟨r, hr, hold⟩)
  rcases link_cases m l with ⟨hv, e⟩ | ⟨hv, -⟩
  · rw [e, targets_of_violation hl.source_lt hv] at ht
    exact hfree ht
  · obtain ⟨hnew, rfl, rfl, rfl⟩ := ((mem_outbound_link hl hv).1 ht).resolve_left hfree
    exact hnew ⟨hr, hledger⟩

theorem Halved.link (hm : Halved m) (hl : l.Fits m) : Halved (m.link l).1 where
  backed s t r hc hi hs := by
    rcases mem_inbound_of_link hl hs with hold | ⟨hv, hfree, rfl, rfl, rfl⟩
    · exact (hm.backed s t r hc hi hold).imp (mem_targets_link_of_mem hl) fun h => ⟨h.1, h.2.link hl⟩
    · have hsame : l.inbound = l.outbound := hl.listed.resolve_right fun h => hc h.2.1
      by_cases hout : (m.classAt l.source).Suppresses .outbound l.outbound l.target
      · -- the source keeps the target out and the target takes the source: they have not met in a checkable cell
        have hr : l.inbound.isCheckable = true := hl.listed.checkable.trans hout.1
        refine Or.inr ⟨hr, Stranded.link ⟨hout.2, fun hcells => ?_⟩ hl⟩
        obtain ⟨r, hr', ht⟩ := mem_checkedTargets.1 hcells
        exact hfree ⟨hr, hm.met _ _ r hr' ht⟩
      · exact Or.inl ((mem_outbound_link hl hv).2 (Or.inr ⟨hout, rfl, hsame, rfl⟩))
  met s t r hr ht := by
    rcases link_cases m l with ⟨hv, e⟩ | ⟨hv, e⟩
    · rw [e, targets_of_violation hl.source_lt hv] at ht
      exact mem_ledger_link hl (hm.met s t r hr ht)
    · rcases (mem_outbound_link hl hv).1 ht with hold | ⟨-, rfl, rfl, rfl⟩
      · exact mem_ledger_link hl (hm.met s t r hr hold)
      · rw [e]
        exact (mem_ledger_record (target_lt_record hl)).2
          (Or.inr ⟨rfl, rfl, hl.listed.checkable.trans hr, rfl⟩)

theorem Moves.halved {policy : Policy} (hmoves : Moves (empty policy) m) : Halved m := by
  refine hmoves.invariant (fun m m' v hmove hm => ?_) (halved_empty policy)
  rcases hmove.agree_or_link with ha | ⟨l, hl, hlink⟩
  · exact hm.agree ha
  · obtain rfl := congrArg Prod.fst hlink
    exact hm.link hl

theorem Halved.toBacked (hm : Halved m) (htidy : ∀ h, (m.classAt h).Tidy) : Backed m := fun s t r hc hi hs =>
  (hm.backed s t r hc hi hs).resolve_right fun h => h.2.2 (htidy s t h.2.1)

theorem run_backed (policy : Policy) (ops : List Operation) :
    let m := ((empty policy).run ops).1
    (∀ s t r, r ≠ .superClass → r ≠ .superInterface → s ∈ (m.classAt t).targets .inbound r →
      t ∈ (m.classAt s).targets .outbound r ∨ (r.isCheckable = true ∧ m.Stranded s t)) ∧
    ((∀ reply ∈ ((empty policy).run ops).2, reply.leavesNote = false) → Backed m) := by
  intro m
  have hm : Halved m := (run_moves (empty policy) ops).halved
  refine ⟨hm.backed, fun clean => hm.toBacked ?_⟩
  have hwithin : Within (fun v => v.leavesNote = false) (empty policy) m := run_within fun _ hv => clean _ hv
  exact hwithin.nodes tidy_new fun hchange hv hn => hn.change hchange hv

/-- Four violations that leave no note: a throws relation and a member of a class that is finished, a nesting that
its target no longer takes, and a super class that comes too late. -/
def clumsy : List Operation :=
  let named (id : String) : Element := { attributes := { id := id, name := id, kind := .classType } }
  [.addClass (named "A") [], .addClass (named "B") [], .addRelation 0 .association 1, .finishAllMembers,
    .finishAllRelations, .addRelation 0 .throwsDependency 1, .addClass (named "C") [],
    .addRelation 2 .innerClass 0, .addRelation 2 .dependency 0, .addRelation 0 .superClass 2,
    .addMember 0 (named "late")]

theorem run_backed_clumsy :
    (((empty .byKind).run clumsy).2.countP Reply.isViolation) = 4 ∧
      (∀ reply ∈ ((empty .byKind).run clumsy).2, reply.leavesNote = false) ∧
      Backed ((empty .byKind).run clumsy).1 :=
  have clean : ∀ reply ∈ ((empty .byKind).run clumsy).2, reply.leavesNote = false := by decide +kernel
  ⟨by decide +kernel, clean, (run_backed .byKind clumsy).2 clean⟩

/-- `A` is refused a nesting after its members are finished, but its ledger keeps the note, and the association that
follows is listed by `B` only. -/
def cutShort : List Operation :=
  let named (id : String) : Element := { attributes := { id := id, name := id, kind := .classType } }
  [.addClass (named "A") [], .addClass (named "B") [], .finishMembers 0, .addRelation 0 .innerClass 1,
    .addRelation 0 .association 1]

theorem not_backed_cutShort : ¬ Backed ((empty .byKind).run cutShort).1 := by
  intro h
  have hin : 0 ∈ (((empty .byKind).run cutShort).1.classAt 1).targets .inbound .association := by decide +kernel
  have hout : 1 ∉ (((empty .byKind).run cutShort).1.classAt 0).targets .outbound .association := by decide +kernel
  exact hout (h 0 1 .association (by decide) (by decide) hin)

end ClassModel

end ClassAtlas
