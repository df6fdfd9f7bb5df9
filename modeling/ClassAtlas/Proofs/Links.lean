import ClassAtlas.Proofs.Moves

/-! A model without violations is read off the links made in it: a class lists a link outbound at its source
and inbound at its target, and a ledger knows the checkable ones (`Records`). Each move keeps the links or makes
one, which counts unless a checkable link between the same two classes was there before. -/

namespace ClassAtlas

namespace ClassModel

/-- The links `L` are what the cells and ledgers of the model show. -/
structure Records (m : ClassModel) (L : Link → Prop) : Prop where
  fits : ∀ l, L l → l.Fits m
  outbound : ∀ s r t, t ∈ (m.classAt s).targets .outbound r ↔ ∃ i, L ⟨s, r, t, i⟩
  inbound : ∀ s r t, s ∈ (m.classAt t).targets .inbound r ↔ ∃ o, L ⟨s, o, t, r⟩
  ledgerOut : ∀ s t, t ∈ (m.classAt s).ledger .outbound ↔
    ∃ o i, L ⟨s, o, t, i⟩ ∧ o.isCheckable = true
  ledgerIn : ∀ s t, s ∈ (m.classAt t).ledger .inbound ↔
    ∃ o i, L ⟨s, o, t, i⟩ ∧ o.isCheckable = true

/-- The link is checkable and not the first such link between its classes. -/
def Shadowed (L : Link → Prop) (l : Link) : Prop :=
  l.outbound.isCheckable = true ∧ ∃ o i, L ⟨l.source, o, l.target, i⟩ ∧ o.isCheckable = true

/-- The links after one more was made. -/
def Enter (L : Link → Prop) (l : Link) (k : Link) : Prop := L k ∨ (k = l ∧ ¬ Shadowed L l)

/-- The second model shows the same links, and as many classes or more. -/
structure Agree (m m' : ClassModel) : Prop where
  size_le : m.size ≤ m'.size
  element : ∀ x, x < m.size → (m'.classAt x).element = (m.classAt x).element
  targets : ∀ x d r y, y ∈ (m'.classAt x).targets d r ↔ y ∈ (m.classAt x).targets d r
  ledger : ∀ x d y, y ∈ (m'.classAt x).ledger d ↔ y ∈ (m.classAt x).ledger d

end ClassModel

open ClassModel

variable {m m' : ClassModel} {L : Link → Prop} {l : Link}

theorem Link.Listed.checkable (h : l.Listed m) : l.inbound.isCheckable = l.outbound.isCheckable := by
  rcases h with h | ⟨ho, hi, -⟩
  · rw [h]
  · rw [ho, hi]; rfl

theorem Link.Fits.mono (h : l.Fits m) (hsize : m.size ≤ m'.size)
    (helement : ∀ x, x < m.size → (m'.classAt x).element = (m.classAt x).element) : l.Fits m' := by
  refine ⟨Nat.lt_of_lt_of_le h.source_lt hsize, Nat.lt_of_lt_of_le h.target_lt hsize, h.apart, h.listed.imp_right ?_⟩
  rintro ⟨ho, hi, hint⟩
  refine ⟨ho, hi, ?_⟩
  rw [ClassNode.isInterface, ClassNode.attributes, helement _ h.source_lt]
  exact hint

namespace ClassModel

theorem records_empty (policy : Policy) : Records (empty policy) fun _ => False := by
  constructor <;> simp

theorem Records.agree (h : Records m L) (ha : Agree m m') : Records m' L where
  fits l hl := (h.fits l hl).mono ha.size_le ha.element
  outbound s r t := (ha.targets s .outbound r t).trans (h.outbound s r t)
  inbound s r t := (ha.targets t .inbound r s).trans (h.inbound s r t)
  ledgerOut s t := (ha.ledger s .outbound t).trans (h.ledgerOut s t)
  ledgerIn s t := (ha.ledger t .inbound s).trans (h.ledgerIn s t)

theorem agree_modify {h : Handle} (hh : h < m.size) {f : ClassNode → ClassNode}
    (helement : (f (m.classAt h)).element = (m.classAt h).element)
    (htargets : ∀ d r y, y ∈ (f (m.classAt h)).targets d r ↔ y ∈ (m.classAt h).targets d r)
    (hledger : ∀ d y, y ∈ (f (m.classAt h)).ledger d ↔ y ∈ (m.classAt h).ledger d) :
    Agree m (m.modify h f) := by
  refine ⟨by simp, fun x _ => ?_, fun x d r y => ?_, fun x d y => ?_⟩ <;> rw [classAt_modify hh] <;>
    split
  · rename_i e; rw [e, helement]
  · rfl
  · rename_i e; rw [e, htargets]
  · rfl
  · rename_i e; rw [e, hledger]
  · rfl

theorem agree_extend (m : ClassModel) (e : Element) (ps : List TypeRef) : Agree m (m.extend e ps) := by
  have hrest : ∀ x, m.size ≤ x → ∀ y, (∀ d r, y ∉ (m.classAt x).targets d r) ∧
      (∀ d, y ∉ (m.classAt x).ledger d) ∧ (∀ d r, y ∉ ((m.extend e ps).classAt x).targets d r) ∧
      ∀ d, y ∉ ((m.extend e ps).classAt x).ledger d := by
    intro x hx y
    rw [classAt_of_size_le hx]
    rcases Nat.eq_or_lt_of_le hx with rfl | hlt
    · rw [classAt_extend_size]
      simp [ClassNode.targets, ClassNode.cell, ClassNode.ledger]
    · rw [classAt_of_size_le (m := m.extend e ps) (by rw [size_extend]; exact hlt)]
      simp [ClassNode.targets, ClassNode.cell, ClassNode.ledger]
  refine ⟨by simp, fun x hx => by rw [classAt_extend e ps hx], fun x d r y => ?_, fun x d y => ?_⟩
  · rcases Nat.lt_or_ge x m.size with hx | hx
    · rw [classAt_extend e ps hx]
    · simp [(hrest x hx y).1, (hrest x hx y).2.2.1]
  · rcases Nat.lt_or_ge x m.size with hx | hx
    · rw [classAt_extend e ps hx]
    · simp [(hrest x hx y).2.1, (hrest x hx y).2.2.2]

theorem Agree.refl (m : ClassModel) : Agree m m :=
  ⟨Nat.le_refl _, fun _ _ => rfl, fun _ _ _ _ => Iff.rfl, fun _ _ _ => Iff.rfl⟩

/-- Where no class is new, none is different. -/
theorem Agree.element_all (h : Agree m m') (hsize : m'.size = m.size) (x : Handle) :
    (m'.classAt x).element = (m.classAt x).element := by
  rcases Nat.lt_or_ge x m.size with hx | hx
  · exact h.element x hx
  · rw [classAt_of_size_le hx, classAt_of_size_le (hsize ▸ hx)]

theorem Agree.trans {m1 : ClassModel} (h : Agree m m1) (h' : Agree m1 m') : Agree m m' where
  size_le := Nat.le_trans h.size_le h'.size_le
  element x hx := (h'.element x (Nat.lt_of_lt_of_le hx h.size_le)).trans (h.element x hx)
  targets x d r y := (h'.targets x d r y).trans (h.targets x d r y)
  ledger x d y := (h'.ledger x d y).trans (h.ledger x d y)

theorem agree_finishMembers {h : Handle} (finished : m.finishMembers h = .ok m') : Agree m m' := by
  obtain ⟨hh, -, rfl⟩ := finishMembers_eq_ok_iff.1 finished
  have : Agree m (m.modify h fun n => n.finishMembers m.policy m.sortHandles) :=
    agree_modify hh rfl
      (fun _ _ _ => ClassNode.mem_targets_finishMembers m.sortHandles_reorders) fun _ _ => Iff.rfl
  exact ⟨this.size_le, this.element, this.targets, this.ledger⟩

theorem agree_finishRelations {h : Handle} (finished : m.finishRelations h = .ok m') : Agree m m' := by
  obtain ⟨hh, -, -, rfl⟩ := finishRelations_eq_ok_iff.1 finished
  exact agree_modify hh rfl
    (fun _ _ _ => ClassNode.mem_targets_finishRelations m.sortHandles_reorders) fun _ _ => Iff.rfl

theorem agree_finishEach (finish : ClassModel → Handle → Except Refusal ClassModel)
    (hf : ∀ m h m', finish m h = .ok m' → Agree m m') (m : ClassModel) (hs : List Handle) :
    Agree m (m.finishEach finish hs).1 :=
  finishEach_invariant (P := Agree m) (fun m1 h m' he hm1 => hm1.trans (hf m1 h m' he)) (Agree.refl m) hs

/-- A move keeps the links of the model or makes one. -/
theorem Move.agree_or_link {v : Option Violation} (h : Move m m' v) :
    Agree m m' ∨ ∃ l, l.Fits m ∧ m.link l = (m', v) := by
  cases h with
  | extend e ps _ => exact Or.inl (agree_extend m e ps)
  | @member h x _ _ inside added =>
    left
    rcases addMember_cases m h x with ⟨-, e⟩ | ⟨-, e⟩ <;> rw [e] at added <;>
      obtain ⟨rfl, -⟩ := Prod.mk.inj added
    · exact agree_modify inside rfl (fun _ _ _ => Iff.rfl) fun _ _ => Iff.rfl
    · exact Agree.refl m
  | @link l _ _ fits linked => exact Or.inr ⟨l, fits, linked⟩
  | finishMembers finished => exact Or.inl (agree_finishMembers finished)
  | finishRelations finished => exact Or.inl (agree_finishRelations finished)

section Record

variable {owner t x y : Handle} {d d' : Direction} {r r' : Relation}

theorem classAt_record (ho : owner < m.size) (x : Handle) :
    (m.record owner d r t).1.classAt x =
      if x = owner then ((m.classAt owner).record d r t).1 else m.classAt x :=
  classAt_modify ho _ x

theorem element_record (ho : owner < m.size) (x : Handle) :
    ((m.record owner d r t).1.classAt x).element = (m.classAt x).element := by
  rw [classAt_record ho]
  split
  · rename_i e; rw [e, ClassNode.record_element]
  · rfl

theorem mem_targets_record (ho : owner < m.size) (hv : (m.record owner d r t).2 = none) :
    y ∈ ((m.record owner d r t).1.classAt x).targets d' r' ↔ y ∈ (m.classAt x).targets d' r' ∨
      (¬ (m.classAt owner).Suppresses d r t ∧ x = owner ∧ d' = d ∧ r' = r ∧ y = t) := by
  rw [classAt_record ho]
  split
  · rename_i e; subst e
    simpa using ClassNode.mem_targets_record hv
  · rename_i e
    simp [e]

theorem mem_ledger_record (ho : owner < m.size) :
    y ∈ ((m.record owner d r t).1.classAt x).ledger d' ↔ y ∈ (m.classAt x).ledger d' ∨
      (x = owner ∧ d' = d ∧ r.isCheckable = true ∧ y = t) := by
  rw [classAt_record ho]
  split
  · rename_i e; subst e
    simpa using ClassNode.mem_ledger_record
  · rename_i e
    simp [e]

/-- Recording in one cell leaves all other cells alone. -/
theorem targets_of_record_ne (ho : owner < m.size) (hne : ¬ (d' = d ∧ r' = r)) :
    ((m.record owner d r t).1.classAt x).targets d' r' = (m.classAt x).targets d' r' := by
  rw [classAt_record ho]
  split
  · rename_i e
    rw [e]
    exact ClassNode.targets_record_ne hne
  · rfl

theorem targets_of_violation (ho : owner < m.size) (hv : (m.record owner d r t).2 ≠ none) :
    ((m.record owner d r t).1.classAt x).targets d' r' = (m.classAt x).targets d' r' := by
  rw [classAt_record ho]
  split
  · rename_i e
    rw [e]
    exact ClassNode.targets_record_of_ne_none hv
  · rfl

theorem mem_targets_record_of_mem (ho : owner < m.size) (hy : y ∈ (m.classAt x).targets d' r') :
    y ∈ ((m.record owner d r t).1.classAt x).targets d' r' := by
  rw [classAt_record ho]
  split
  · rename_i e; subst e
    exact ClassNode.mem_targets_record_of_mem hy
  · exact hy

theorem mem_targets_of_record (ho : owner < m.size)
    (hy : y ∈ ((m.record owner d r t).1.classAt x).targets d' r') : y ∈ (m.classAt x).targets d' r' ∨
      (¬ (m.classAt owner).Suppresses d r t ∧ x = owner ∧ d' = d ∧ r' = r ∧ y = t) := by
  rw [classAt_record ho] at hy
  split at hy
  · rename_i e; subst e
    simpa using ClassNode.mem_targets_of_record hy
  · exact Or.inl hy

end Record

theorem link_eq_none (h : m.link l = (m', none)) :
    (m.record l.source .outbound l.outbound l.target).2 = none ∧
      (m.record l.source .outbound l.outbound l.target).1.record l.target .inbound l.inbound
        l.source = (m', none) := by
  rcases link_cases m l with ⟨hv, e⟩ | ⟨hv, e⟩ <;> rw [e] at h
  · exact absurd (congrArg Prod.snd h) hv
  · exact ⟨hv, h⟩

section Enter

variable {s t : Handle} {r : Relation}

theorem enter_outbound : (∃ i, Enter L l ⟨s, r, t, i⟩) ↔
    (∃ i, L ⟨s, r, t, i⟩) ∨ (¬ Shadowed L l ∧ s = l.source ∧ r = l.outbound ∧ t = l.target) := by
  constructor
  · rintro ⟨i, hi | ⟨rfl, hs⟩⟩
    exacts [Or.inl ⟨i, hi⟩, Or.inr ⟨hs, rfl, rfl, rfl⟩]
  · rintro (⟨i, hi⟩ | ⟨hs, rfl, rfl, rfl⟩)
    exacts [⟨i, Or.inl hi⟩, ⟨l.inbound, Or.inr ⟨rfl, hs⟩⟩]

theorem enter_inbound : (∃ o, Enter L l ⟨s, o, t, r⟩) ↔
    (∃ o, L ⟨s, o, t, r⟩) ∨ (¬ Shadowed L l ∧ t = l.target ∧ r = l.inbound ∧ s = l.source) := by
  constructor
  · rintro ⟨o, ho | ⟨rfl, hs⟩⟩
    exacts [Or.inl ⟨o, ho⟩, Or.inr ⟨hs, rfl, rfl, rfl⟩]
  · rintro (⟨o, ho⟩ | ⟨hs, rfl, rfl, rfl⟩)
    exacts [⟨o, Or.inl ho⟩, ⟨l.outbound, Or.inr ⟨rfl, hs⟩⟩]

/-- A shadowed link adds nothing, but then the ledgers know its classes already. -/
theorem enter_checkable : (∃ o i, Enter L l ⟨s, o, t, i⟩ ∧ o.isCheckable = true) ↔
    (∃ o i, L ⟨s, o, t, i⟩ ∧ o.isCheckable = true) ∨
      (s = l.source ∧ l.outbound.isCheckable = true ∧ t = l.target) := by
  constructor
  · rintro ⟨o, i, hk | ⟨rfl, -⟩, hc⟩
    exacts [Or.inl ⟨o, i, hk, hc⟩, Or.inr ⟨rfl, hc, rfl⟩]
  · rintro (⟨o, i, hk, hc⟩ | ⟨rfl, hc, rfl⟩)
    · exact ⟨o, i, Or.inl hk, hc⟩
    · by_cases hs : Shadowed L l
      · obtain ⟨-, o, i, hk, hc'⟩ := hs
        exact ⟨o, i, Or.inl hk, hc'⟩
      · exact ⟨l.outbound, l.inbound, Or.inr ⟨rfl, hs⟩, hc⟩

end Enter

theorem element_link (hl : l.Fits m) (hlink : m.link l = (m', none)) :
    m'.size = m.size ∧ ∀ x, (m'.classAt x).element = (m.classAt x).element := by
  obtain ⟨-, hlink⟩ := link_eq_none hlink
  have htarget := target_lt_record hl
  obtain rfl := congrArg Prod.fst hlink
  exact ⟨by simp, fun x => by rw [element_record htarget, element_record hl.source_lt]⟩

/-- Without violations no class goes away or becomes another one. -/
theorem Calm.element (h : Calm m m') :
    m.size ≤ m'.size ∧ ∀ x, x < m.size → (m'.classAt x).element = (m.classAt x).element := by
  induction h with
  | refl => exact ⟨Nat.le_refl _, fun _ _ => rfl⟩
  | tail _ hmove ih =>
    obtain ⟨hsize, helement⟩ := ih
    rcases hmove.agree_or_link with ha | ⟨l, hl, hlink⟩
    · exact ⟨Nat.le_trans hsize ha.size_le, fun x hx =>
        (ha.element x (Nat.lt_of_lt_of_le hx hsize)).trans (helement x hx)⟩
    · obtain ⟨hsize', helement'⟩ := element_link hl hlink
      exact ⟨hsize'.symm ▸ hsize, fun x hx => (helement' x).trans (helement x hx)⟩

/-- Making a link adds it at both ends, or at none if it is shadowed: the two ledgers agree. -/
theorem Records.link (h : Records m L) (hl : l.Fits m) (hlink : m.link l = (m', none)) :
    Records m' (Enter L l) := by
  obtain ⟨-, helement⟩ := element_link hl hlink
  obtain ⟨hv1, hlink⟩ := link_eq_none hlink
  have hsource := hl.source_lt
  have htarget := target_lt_record hl
  have hv2 := congrArg Prod.snd hlink
  obtain rfl := congrArg Prod.fst hlink
  have hout : (m.classAt l.source).Suppresses .outbound l.outbound l.target ↔ Shadowed L l := by
    unfold ClassNode.Suppresses Shadowed
    rw [h.ledgerOut]
  have hin : ((m.record l.source .outbound l.outbound l.target).1.classAt l.target).Suppresses
      .inbound l.inbound l.source ↔ Shadowed L l := by
    unfold ClassNode.Suppresses Shadowed
    rw [mem_ledger_record hsource, h.ledgerIn, hl.listed.checkable]
    simp
  refine ⟨fun k hk => ?_, fun s r t => ?_, fun s r t => ?_, fun s t => ?_, fun s t => ?_⟩
  · have hk : k.Fits m := by
      rcases hk with hk | ⟨rfl, -⟩
      exacts [h.fits k hk, hl]
    exact hk.mono (by simp) fun x _ => helement x
  · rw [mem_targets_record htarget hv2, mem_targets_record hsource hv1, h.outbound, hout,
      enter_outbound]
    simp
  · rw [mem_targets_record htarget hv2, mem_targets_record hsource hv1, h.inbound, hin,
      enter_inbound]
    simp
  · rw [mem_ledger_record htarget, mem_ledger_record hsource, h.ledgerOut, enter_checkable]
    simp
  · rw [mem_ledger_record htarget, mem_ledger_record hsource, h.ledgerIn, enter_checkable,
      hl.listed.checkable]
    simp only [reduceCtorEq, false_and, and_false, or_false, true_and]
    exact or_congr_right (by tauto)

theorem Calm.records (h : Calm m m') (hm : ∃ L, Records m L) : ∃ L, Records m' L := by
  refine Calm.invariant (P := fun m => ∃ L, Records m L) (fun m m' hmove hm => ?_) h hm
  obtain ⟨L, hL⟩ := hm
  rcases hmove.agree_or_link with ha | ⟨l, hl, hlink⟩
  · exact ⟨L, hL.agree ha⟩
  · exact ⟨Enter L l, hL.link hl hlink⟩

end ClassModel

end ClassAtlas
