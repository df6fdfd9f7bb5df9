import ClassAtlas.Proofs.Moves

/-! A move changes each class at most once, and in one of four ways (`Move.moved`). So what new classes have and
every change keeps holds of all classes in every state of a run (`Moves.nodes`), and what a change keeps unless it is a
violation of some kind holds after moves without violations of that kind (`Within.nodes`). -/

namespace ClassAtlas

/-- A change of one class of a model, with the violation it may end in. -/
inductive ClassModel.Change (m : ClassModel) (n : ClassNode) : ClassNode → Option Violation → Prop
  | append (x : Element) (taking : n.lifecycle = .building) : Change m n (n.append x) none
  | record (d : Direction) (r : Relation) (t : Handle) : Change m n (n.record d r t).1 (n.record d r t).2
  | finishMembers (taking : n.lifecycle = .building) : Change m n (n.finishMembers m.policy m.sortHandles) none
  | finishRelations (finished : n.lifecycle = .membersFinalized) : Change m n (n.finishRelations m.sortHandles) none

namespace ClassModel

variable {m m' : ClassModel} {v : Option Violation}

/-- What became of the class of a handle: it is as it was, it is new, or it changed once. -/
def Moved (m m' : ClassModel) (v : Option Violation) (i : Handle) : Prop :=
  m'.classAt i = m.classAt i ∨
  (i = m.size ∧ ∃ e ps, m'.classAt i = (m.extend e ps).classAt i) ∨
  ∃ w, (w = none ∨ w = v) ∧ m.Change (m.classAt i) (m'.classAt i) w

theorem moved_modify {h : Handle} {f : ClassNode → ClassNode} {w : Option Violation} (hh : h < m.size)
    (hw : w = none ∨ w = v) (hf : m.Change (m.classAt h) (f (m.classAt h)) w) (i : Handle) :
    Moved m (m.modify h f) v i := by
  unfold Moved
  rw [classAt_modify hh]
  by_cases hi : i = h
  · subst hi
    rw [if_pos rfl]
    exact Or.inr (Or.inr ⟨w, hw, hf⟩)
  · rw [if_neg hi]
    exact Or.inl rfl

theorem moved_record {owner t : Handle} {d : Direction} {r : Relation} (ho : owner < m.size)
    (hv : (m.record owner d r t).2 = none ∨ (m.record owner d r t).2 = v) (i : Handle) :
    Moved m (m.record owner d r t).1 v i :=
  moved_modify ho hv (Change.record d r t) i

theorem moved_link {l : Link} (hl : l.Fits m) (i : Handle) : Moved m (m.link l).1 (m.link l).2 i := by
  rcases link_cases m l with ⟨-, e⟩ | ⟨hv, e⟩ <;> rw [e]
  · exact moved_record hl.source_lt (Or.inr rfl) i
  · have ht := target_lt_record hl
    have hsource := moved_record
      (v := ((m.record l.source .outbound l.outbound l.target).1.record l.target .inbound l.inbound
        l.source).2) hl.source_lt (Or.inl hv) i
    by_cases hi : i = l.target
    · subst hi
      refine Or.inr (Or.inr ⟨_, Or.inr rfl, ?_⟩)
      rw [record_eq (m.record l.source .outbound l.outbound l.target).1, classAt_modify ht, if_pos rfl,
        classAt_target_record hl]
      exact Change.record .inbound l.inbound l.source
    · unfold Moved at hsource ⊢
      rw [record_eq (m.record l.source .outbound l.outbound l.target).1, classAt_modify ht, if_neg hi]
      exact hsource

theorem Move.moved (hmove : Move m m' v) (i : Handle) : Moved m m' v i := by
  cases hmove with
  | extend e ps fresh =>
    rcases Nat.lt_trichotomy i m.size with hi | rfl | hi
    · exact Or.inl (classAt_extend e ps hi)
    · exact Or.inr (Or.inl ⟨rfl, e, ps, rfl⟩)
    · left
      rw [classAt_of_size_le (Nat.le_of_lt hi), classAt_of_size_le (by rw [size_extend]; omega)]
  | @member h x _ _ inside added =>
    rcases addMember_cases m h x with ⟨hb, e⟩ | ⟨-, e⟩ <;> rw [e] at added <;>
      obtain ⟨rfl, -⟩ := Prod.mk.inj added
    · exact moved_modify inside (Or.inl rfl) (Change.append x hb) i
    · exact Or.inl rfl
  | link fits linked =>
    have hlink := moved_link fits i
    rwa [linked] at hlink
  | finishMembers finished =>
    obtain ⟨hh, hb, rfl⟩ := finishMembers_eq_ok_iff.1 finished
    exact moved_modify hh (Or.inl rfl) (Change.finishMembers hb) i
  | finishRelations finished =>
    obtain ⟨hh, hl, -, rfl⟩ := finishRelations_eq_ok_iff.1 finished
    exact moved_modify hh (Or.inl rfl) (Change.finishRelations hl) i

theorem Move.policy (hmove : Move m m' v) : m'.policy = m.policy := by
  cases hmove with
  | extend e ps _ => rfl
  | @member h x _ _ _ added =>
    rcases addMember_cases m h x with ⟨-, e⟩ | ⟨-, e⟩ <;> rw [e] at added <;>
      obtain ⟨rfl, -⟩ := Prod.mk.inj added <;> rfl
  | @link l _ _ _ linked =>
    rcases link_cases m l with ⟨-, e⟩ | ⟨-, e⟩ <;> rw [linked] at e <;>
      obtain ⟨rfl, -⟩ := Prod.mk.inj e <;> rfl
  | finishMembers finished =>
    obtain ⟨-, -, rfl⟩ := finishMembers_eq_ok_iff.1 finished
    rfl
  | finishRelations finished =>
    obtain ⟨-, -, -, rfl⟩ := finishRelations_eq_ok_iff.1 finished
    rfl

theorem Moves.policy (hmoves : Moves m m') : m'.policy = m.policy :=
  hmoves.invariant (P := fun m' => m'.policy = m.policy) (fun _ _ _ hmove h => hmove.policy.trans h) rfl

/-- A change records one side of a relation, or it keeps the ledgers and at most freezes cells. -/
theorem Change.cells_cases {n n' : ClassNode} (hchange : m.Change n n' v) :
    (∃ d r t, n' = (n.record d r t).1 ∧ v = (n.record d r t).2) ∨
    ((∀ d, n'.ledger d = n.ledger d) ∧ ∀ d r, n'.cell d r = n.cell d r ∨
      ((n.cell d r).frozen = false ∧ n'.cell d r = (n.cell d r).freeze m.sortHandles)) := by
  have hfreeze {n : ClassNode} (chosen : Slot → Bool) (d : Direction) (r : Relation) :
      (n.freeze m.sortHandles chosen).cell d r = n.cell d r ∨
        ((n.cell d r).frozen = false ∧
          (n.freeze m.sortHandles chosen).cell d r = (n.cell d r).freeze m.sortHandles) := by
    rw [ClassNode.cell_freeze]
    split
    · rename_i hc
      exact Or.inr ⟨by simpa using (Bool.and_eq_true_iff.1 hc).2, rfl⟩
    · exact Or.inl rfl
  cases hchange with
  | append x _ => exact Or.inr ⟨fun _ => rfl, fun _ _ => Or.inl rfl⟩
  | record d r t => exact Or.inl ⟨d, r, t, rfl, rfl⟩
  | finishMembers _ =>
    exact Or.inr ⟨fun _ => rfl, hfreeze (n := n.sortMembers m.policy) ClassNode.freezesWithMembers⟩
  | finishRelations _ => exact Or.inr ⟨fun _ => rfl, hfreeze ClassNode.freezesWithRelations⟩

theorem Change.element {n n' : ClassNode} (hchange : m.Change n n' v) : n'.element = n.element := by
  cases hchange with
  | append x _ => rfl
  | record d r t => exact ClassNode.record_element
  | finishMembers _ => rfl
  | finishRelations _ => rfl

theorem Move.element (hmove : Move m m' v) {h : Handle} (hh : h < m.size) :
    (m'.classAt h).element = (m.classAt h).element := by
  rcases hmove.moved h with e | ⟨rfl, -⟩ | ⟨w, -, hchange⟩
  · rw [e]
  · exact absurd hh (Nat.lt_irrefl _)
  · exact hchange.element

variable {policy : Policy} {P : ClassNode → Prop}

theorem nodes_empty (new : ∀ h e ps, P { handle := h, element := e, typeParameters := ps }) (policy : Policy)
    (i : Handle) : P ((empty policy).classAt i) := by
  rw [classAt_of_size_le (Nat.zero_le i)]
  exact new ..

theorem Moves.nodes (new : ∀ h e ps, P { handle := h, element := e, typeParameters := ps })
    (keep : ∀ {m n n' w}, Change m n n' w → P n → P n') (h : Moves (empty policy) m) (i : Handle) :
    P (m.classAt i) := by
  refine h.invariant (P := fun m => ∀ i, P (m.classAt i)) (fun m m' v hmove hm i => ?_) (nodes_empty new policy) i
  rcases hmove.moved i with e | ⟨rfl, e, ps, hnew⟩ | ⟨w, -, hchange⟩
  · rw [e]
    exact hm i
  · rw [hnew, classAt_extend_size]
    exact new m.size e ps
  · exact keep hchange (hm i)

theorem Within.nodes {p : Violation → Prop}
    (new : ∀ h e ps, P { handle := h, element := e, typeParameters := ps })
    (keep : ∀ {m n n' v}, Change m n n' v → (∀ w, v = some w → p w) → P n → P n')
    (h : Within p (empty policy) m) (i : Handle) : P (m.classAt i) := by
  refine h.invariant (P := fun m => ∀ i, P (m.classAt i)) (fun m m' v hmove hv hm i => ?_) (nodes_empty new policy) i
  rcases hmove.moved i with e | ⟨rfl, e, ps, hnew⟩ | ⟨w, hw, hchange⟩
  · rw [e]
    exact hm i
  · rw [hnew, classAt_extend_size]
    exact new m.size e ps
  · refine keep hchange (fun w' hw' => ?_) (hm i)
    rcases hw with rfl | rfl
    · cases hw'
    · exact hv w' hw'

theorem Calm.nodes (new : ∀ h e ps, P { handle := h, element := e, typeParameters := ps })
    (keep : ∀ {m n n'}, Change m n n' none → P n → P n') (h : Calm (empty policy) m) (i : Handle) :
    P (m.classAt i) := by
  refine (h.within fun _ => False).nodes new (fun {_ _ _ v} hchange hv hn => ?_) i
  cases v with
  | none => exact keep hchange hn
  | some w => exact (hv w rfl).elim

end ClassModel

end ClassAtlas
