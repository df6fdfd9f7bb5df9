import ClassAtlas.Proofs.Moves

/-! In every state of every run, also after violations, the class at a place has that place as its handle, the
index knows each class under its id, so no two share one, the cells and ledgers of a class name other classes of
the model only, and the model knows how many classes take members (`run_wellFormed`). -/

namespace ClassAtlas

namespace ClassModel

/-- Classes are numbered, found by their ids, and related to one another only. -/
structure Closed (m : ClassModel) : Prop where
  numbered : ∀ h, h < m.size → (m.classAt h).handle = h
  indexed : ∀ id h, m.handle? id = some h ↔ h < m.size ∧ (m.classAt h).id = id
  targets : ∀ h d r, ∀ x ∈ (m.classAt h).targets d r, x < m.size ∧ x ≠ h
  ledger : ∀ h d, ∀ x ∈ (m.classAt h).ledger d, x < m.size ∧ x ≠ h

structure WellFormed (m : ClassModel) : Prop extends Closed m where
  pending : m.pending = m.taking

variable {m m' : ClassModel} {h : Handle}

/-- The index gives one class for an id. -/
theorem Closed.unique (hm : Closed m) (h i : Handle) (hh : h < m.size) (hi : i < m.size)
    (hid : (m.classAt h).id = (m.classAt i).id) : h = i := by
  have hfound := (hm.indexed _ h).2 ⟨hh, hid⟩
  rw [(hm.indexed _ i).2 ⟨hi, rfl⟩] at hfound
  exact (Option.some.inj hfound).symm

theorem Closed.handle?_eq_none_iff (hm : Closed m) {id : String} :
    m.handle? id = none ↔ ∀ h, h < m.size → (m.classAt h).id ≠ id := by
  rw [Option.eq_none_iff_forall_ne_some]
  exact ⟨fun hno h hh hid => hno h ((hm.indexed id h).2 ⟨hh, hid⟩),
    fun hno h hfound => hno h ((hm.indexed id h).1 hfound).1 ((hm.indexed id h).1 hfound).2⟩

theorem closed_empty (policy : Policy) : Closed (empty policy) := by
  refine ⟨fun h hh => absurd hh (Nat.not_lt_zero h), fun id h => ?_, by simp, by simp⟩
  exact ⟨fun hfound => (Option.some_ne_none h hfound.symm).elim, fun hh => absurd hh.1 (Nat.not_lt_zero h)⟩

/-- A change of one class keeps the model closed if it keeps the handle and the element and brings in other
classes only. -/
theorem Closed.modify (hm : Closed m) (hh : h < m.size) {f : ClassNode → ClassNode}
    (hhandle : (f (m.classAt h)).handle = (m.classAt h).handle)
    (helement : (f (m.classAt h)).element = (m.classAt h).element)
    (htargets : ∀ d r, ∀ x ∈ (f (m.classAt h)).targets d r,
      x ∈ (m.classAt h).targets d r ∨ (x < m.size ∧ x ≠ h))
    (hledger : ∀ d, ∀ x ∈ (f (m.classAt h)).ledger d,
      x ∈ (m.classAt h).ledger d ∨ (x < m.size ∧ x ≠ h)) : Closed (m.modify h f) := by
  have hid : ∀ i, ((m.modify h f).classAt i).id = (m.classAt i).id := by
    intro i
    rw [classAt_modify hh]
    split
    · rename_i e; rw [e, ClassNode.id, helement]; rfl
    · rfl
  refine ⟨fun i hi => ?_, fun id i => ?_, fun i d r x hx => ?_, fun i d x hx => ?_⟩
  · rw [size_modify] at hi
    rw [classAt_modify hh]
    split
    · rename_i e; subst e; rw [hhandle]; exact hm.numbered i hi
    · exact hm.numbered i hi
  · rw [size_modify, hid]
    exact hm.indexed id i
  · rw [classAt_modify hh] at hx
    rw [size_modify]
    split at hx
    · rename_i e; subst e
      exact (htargets d r x hx).elim (hm.targets i d r x) id
    · exact hm.targets i d r x hx
  · rw [classAt_modify hh] at hx
    rw [size_modify]
    split at hx
    · rename_i e; subst e
      exact (hledger d x hx).elim (hm.ledger i d x) id
    · exact hm.ledger i d x hx

theorem Closed.extend (hm : Closed m) {e : Element} (ps : List TypeRef)
    (fresh : m.handle? e.id = none) : Closed (m.extend e ps) := by
  have hold : ∀ i, i ≠ m.size → (m.extend e ps).classAt i = m.classAt i := by
    intro i hi
    rcases Nat.lt_or_ge i m.size with hlt | hge
    · exact classAt_extend e ps hlt
    · rw [classAt_of_size_le hge, classAt_of_size_le]
      rw [size_extend]
      exact Nat.lt_of_le_of_ne hge (Ne.symm hi)
  refine ⟨fun i hi => ?_, fun id i => ?_, fun i d r x hx => ?_, fun i d x hx => ?_⟩
  · by_cases e : i = m.size
    · rw [e, classAt_extend_size]
    · rw [size_extend] at hi
      rw [hold i e]
      exact hm.numbered i (Nat.lt_of_le_of_ne (Nat.le_of_lt_succ hi) e)
  · rw [handle?_extend, size_extend]
    by_cases hi : i = m.size
    · subst hi
      have hno : m.handle? id ≠ some m.size := fun hfound => Nat.lt_irrefl _ ((hm.indexed id m.size).1 hfound).1
      rw [classAt_extend_size]
      by_cases hid : id = e.id
      · simp [hid, ClassNode.id]
      · simp [hid, hno, ClassNode.id, Ne.symm hid]
    · -- the id of the new class was not in use
      have hlt : i < m.size + 1 ↔ i < m.size := Nat.lt_succ_iff_lt_or_eq.trans (or_iff_left hi)
      rw [hold i hi, hlt]
      by_cases hid : id = e.id
      · subst hid
        rw [if_pos rfl, Option.some.injEq]
        exact ⟨fun e => absurd e.symm hi, fun h => absurd h.2 (hm.handle?_eq_none_iff.1 fresh i h.1)⟩
      · rw [if_neg hid, hm.indexed]
  · rw [size_extend]
    by_cases e : i = m.size
    · rw [e, classAt_extend_size] at hx; simp [ClassNode.targets, ClassNode.cell] at hx
    · rw [hold i e] at hx
      exact (hm.targets i d r x hx).imp_left (Nat.lt_succ_of_lt ·)
  · rw [size_extend]
    by_cases e : i = m.size
    · rw [e, classAt_extend_size] at hx; simp [ClassNode.ledger] at hx
    · rw [hold i e] at hx
      exact (hm.ledger i d x hx).imp_left (Nat.lt_succ_of_lt ·)

theorem Closed.record (hm : Closed m) {owner t : Handle} (ho : owner < m.size) (ht : t < m.size)
    (hne : t ≠ owner) (d : Direction) (r : Relation) : Closed (m.record owner d r t).1 := by
  rw [record_eq]
  refine hm.modify ho ClassNode.record_handle ClassNode.record_element (fun d' r' x hx => ?_) (fun d' x hx => ?_)
  · refine (ClassNode.mem_targets_of_record hx).imp_right ?_
    rintro ⟨-, -, -, rfl⟩
    exact ⟨ht, hne⟩
  · refine (ClassNode.mem_ledger_record.1 hx).imp_right ?_
    rintro ⟨-, -, rfl⟩
    exact ⟨ht, hne⟩

theorem Closed.link (hm : Closed m) {l : Link} (hl : l.Fits m) : Closed (m.link l).1 := by
  have h1 := hm.record hl.source_lt hl.target_lt (Ne.symm hl.apart) .outbound l.outbound
  rcases link_cases m l with ⟨-, e⟩ | ⟨-, e⟩ <;> rw [e]
  · exact h1
  · refine h1.record ?_ ?_ hl.apart .inbound l.inbound <;> rw [size_record]
    exacts [hl.target_lt, hl.source_lt]

theorem Closed.move {v : Option Violation} (hm : Closed m) (hmove : Move m m' v) : Closed m' := by
  cases hmove with
  | extend e ps fresh => exact hm.extend ps fresh
  | @member h x _ _ inside added =>
    rcases addMember_cases m h x with ⟨-, e⟩ | ⟨-, e⟩ <;> rw [e] at added <;>
      obtain ⟨rfl, -⟩ := Prod.mk.inj added
    · exact hm.modify inside rfl rfl (fun d r x hx => Or.inl hx) (fun d x hx => Or.inl hx)
    · exact hm
  | link fits linked =>
    have := hm.link fits
    rwa [linked] at this
  | @finishMembers h _ finished =>
    obtain ⟨hh, -, rfl⟩ := finishMembers_eq_ok_iff.1 finished
    have : Closed (m.modify h fun n => n.finishMembers m.policy m.sortHandles) :=
      hm.modify hh rfl rfl
        (fun d r x hx => Or.inl ((ClassNode.mem_targets_finishMembers m.sortHandles_reorders).1 hx))
        (fun d x hx => Or.inl hx)
    exact ⟨this.numbered, this.indexed, this.targets, this.ledger⟩
  | finishRelations finished =>
    obtain ⟨hh, -, -, rfl⟩ := finishRelations_eq_ok_iff.1 finished
    exact hm.modify hh rfl rfl
      (fun d r x hx => Or.inl ((ClassNode.mem_targets_finishRelations m.sortHandles_reorders).1 hx))
      (fun d x hx => Or.inl hx)

/-- A change that neither lets a class take members nor ends it does not count. -/
theorem taking_modify_of_iff (hh : h < m.size) {f : ClassNode → ClassNode}
    (hlife : (f (m.classAt h)).lifecycle = .building ↔ (m.classAt h).lifecycle = .building) :
    (m.modify h f).taking = m.taking := by
  have := taking_modify hh f
  by_cases hb : (m.classAt h).lifecycle = .building
  · rw [if_pos hb, if_pos (hlife.2 hb)] at this
    exact Nat.add_right_cancel this
  · rwa [if_neg hb, if_neg fun e => hb (hlife.1 e)] at this

theorem taking_extend (m : ClassModel) (e : Element) (ps : List TypeRef) :
    (m.extend e ps).taking = m.taking + 1 := by
  simp [taking, extend, register]

theorem counted_record {owner t : Handle} (ho : owner < m.size) (d : Direction) (r : Relation) :
    (m.record owner d r t).1.pending = m.pending ∧ (m.record owner d r t).1.taking = m.taking := by
  rw [record_eq]
  exact ⟨rfl, taking_modify_of_iff ho (by rw [ClassNode.record_lifecycle])⟩

theorem counted_link {l : Link} (hl : l.Fits m) :
    (m.link l).1.pending = m.pending ∧ (m.link l).1.taking = m.taking := by
  obtain ⟨hp, ht⟩ := counted_record (t := l.target) hl.source_lt .outbound l.outbound
  rcases link_cases m l with ⟨-, e⟩ | ⟨-, e⟩ <;> rw [e]
  · exact ⟨hp, ht⟩
  · obtain ⟨hp', ht'⟩ := counted_record (t := l.source) (target_lt_record hl) .inbound l.inbound
    exact ⟨hp'.trans hp, ht'.trans ht⟩

theorem pending_move {v : Option Violation} (hm : m.pending = m.taking) (hmove : Move m m' v) :
    m'.pending = m'.taking := by
  cases hmove with
  | extend e ps _ =>
    rw [taking_extend, ← hm]
    rfl
  | @member h x _ _ inside added =>
    rcases addMember_cases m h x with ⟨-, e⟩ | ⟨-, e⟩ <;> rw [e] at added <;>
      obtain ⟨rfl, -⟩ := Prod.mk.inj added
    · rw [taking_modify_of_iff inside Iff.rfl]
      exact hm
    · exact hm
  | link fits linked =>
    have := counted_link fits
    rw [linked] at this
    rw [this.1, this.2, hm]
  | @finishMembers h _ finished =>
    obtain ⟨hh, hb, rfl⟩ := finishMembers_eq_ok_iff.1 finished
    have := taking_modify hh fun n => n.finishMembers m.policy m.sortHandles
    rw [if_pos hb, if_neg (by simp [ClassNode.finishMembers])] at this
    change m.pending - 1 = (m.modify h fun n => n.finishMembers m.policy m.sortHandles).taking
    omega
  | @finishRelations h _ finished =>
    obtain ⟨hh, hl, -, rfl⟩ := finishRelations_eq_ok_iff.1 finished
    rw [taking_modify_of_iff hh (by simp [ClassNode.finishRelations, hl])]
    exact hm

theorem wellFormed_empty (policy : Policy) : WellFormed (empty policy) := ⟨closed_empty policy, rfl⟩

theorem WellFormed.move {v : Option Violation} (hm : WellFormed m) (hmove : Move m m' v) : WellFormed m' :=
  ⟨hm.toClosed.move hmove, pending_move hm.pending hmove⟩

theorem Moves.wellFormed (h : Moves m m') (hm : WellFormed m) : WellFormed m' :=
  h.invariant (fun _ _ _ hmove hm => hm.move hmove) hm

/-- The handle of an id is that of the one class which has it. -/
theorem handle?_eq_some_iff (hm : WellFormed m) {id : String} :
    m.handle? id = some h ↔ h < m.size ∧ (m.classAt h).id = id := hm.indexed id h

theorem run_wellFormed (policy : Policy) (ops : List Operation) : WellFormed ((empty policy).run ops).1 :=
  (run_moves (empty policy) ops).wellFormed (wellFormed_empty policy)

end ClassModel

end ClassAtlas
