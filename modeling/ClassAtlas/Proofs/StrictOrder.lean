import ClassAtlas.Proofs.Changes
import ClassAtlas.Proofs.WellFormed

/-! The two named policies order the classes of a model strictly, so a set of classes has one listing in order
(`Ascending.eq_of_perm`). Under any total preorder a cell is put in order when it freezes, and since no element changes
later it stays in order (`Moves.frozenAscending`). -/

namespace ClassAtlas

/-- Each element compares with those after it as no greater. -/
def Ascending {α : Type} (cmp : α → α → Ordering) (as : List α) : Prop := as.Pairwise fun a b => (cmp a b).isLE

section Sorting

variable {α : Type} {cmp : α → α → Ordering} {as bs : List α}

theorem ascending_insertBy [Std.TransCmp cmp] (a : α) (h : Ascending cmp as) : Ascending cmp (insertBy cmp a as) := by
  induction as with
  | nil => exact List.pairwise_singleton _ a
  | cons b bs ih =>
    obtain ⟨hb, hbs⟩ := List.pairwise_cons.1 h
    unfold insertBy
    split
    · rename_i hgt
      refine List.pairwise_cons.2 ⟨fun x hx => ?_, ih hbs⟩
      rcases List.mem_cons.1 ((insertBy_perm cmp a bs).mem_iff.1 hx) with rfl | hx
      · rw [Std.OrientedCmp.gt_iff_lt.1 hgt]
        rfl
      · exact hb x hx
    · rename_i hle
      have hab : (cmp a b).isLE := Ordering.isLE_iff_ne_gt.2 hle
      refine List.pairwise_cons.2 ⟨fun x hx => ?_, h⟩
      rcases List.mem_cons.1 hx with rfl | hx
      · exact hab
      · exact Std.TransCmp.isLE_trans hab (hb x hx)

theorem ascending_sortBy [Std.TransCmp cmp] (as : List α) : Ascending cmp (sortBy cmp as) := by
  induction as with
  | nil => exact List.Pairwise.nil
  | cons a as ih => exact ascending_insertBy a ih

/-- Where only equal elements compare equal, there is one listing in order. -/
theorem Ascending.eq_of_perm [Std.OrientedCmp cmp] (ha : Ascending cmp as) (hb : Ascending cmp bs) (hp : as.Perm bs)
    (hcmp : ∀ a ∈ as, ∀ b ∈ as, cmp a b = .eq → a = b) : as = bs := by
  refine List.Perm.eq_of_pairwise (fun a b hma hmb hab hba => ?_) ha hb hp
  exact hcmp a hma b (hp.mem_iff.2 hmb) (Std.OrientedCmp.isLE_antisymm hab hba)

end Sorting

namespace Policy

/-- The policy orders attributes, and compares as equal none with different ids. -/
structure Strict (policy : Policy) : Prop where
  trans : Std.TransCmp policy.compare
  id_of_eq : ∀ a b, policy.compare a b = .eq → a.id = b.id

theorem byKind_strict : byKind.Strict where
  trans := inferInstanceAs (Std.TransCmp (compareLex (compareOn fun a : Attributes => rank a.kind)
    (compareLex (compareOn fun a => rank a.visibility)
      (compareLex (compareOn fun a => a.name) (compareOn fun a => a.id)))))
  id_of_eq a b h := by
    simp only [byKind, Ordering.then_eq_eq] at h
    exact Std.LawfulEqCmp.compare_eq_iff_eq.1 h.2.2.2

theorem byName_strict : byName.Strict where
  trans := inferInstanceAs (Std.TransCmp (compareLex (compareOn fun a : Attributes => a.name)
    (compareOn fun a => a.id)))
  id_of_eq a b h := by
    simp only [byName, Ordering.then_eq_eq] at h
    exact Std.LawfulEqCmp.compare_eq_iff_eq.1 h.2

theorem strict_of_eq {policy : Policy} (h : policy = byKind ∨ policy = byName) : policy.Strict := by
  rcases h with rfl | rfl
  exacts [byKind_strict, byName_strict]

end Policy

namespace ClassModel

variable {m m' : ClassModel} {n n' : ClassNode} {v : Option Violation} {a b h : Handle} {d : Direction} {r : Relation}

theorem transCmp_compare (ht : Std.TransCmp m.policy.compare) : Std.TransCmp m.compare where
  eq_swap := ht.eq_swap
  isLE_trans := ht.isLE_trans

theorem eq_of_compare_eq (hm : WellFormed m) (hs : m.policy.Strict) (ha : a < m.size) (hb : b < m.size)
    (h : m.compare a b = .eq) : a = b :=
  hm.unique a b ha hb (hs.id_of_eq _ _ h)

/-- Classes of a model have one listing in order. -/
theorem eq_of_ascending (hm : WellFormed m) (hs : m.policy.Strict) {as bs : List Handle}
    (ha : Ascending m.compare as) (hb : Ascending m.compare bs) (hp : as.Perm bs) (hin : ∀ a ∈ as, a < m.size) :
    as = bs := by
  have := transCmp_compare hs.trans
  exact ha.eq_of_perm hb hp fun a hma b hmb => eq_of_compare_eq hm hs (hin a hma) (hin b hmb)

/-- Classes that are listed in order, and each of them once, come strictly one after the other. -/
theorem increasing_of_ascending (hm : WellFormed m) (hs : m.policy.Strict) {as : List Handle}
    (ha : Ascending m.compare as) (hnodup : as.Nodup) (hin : ∀ a ∈ as, a < m.size) :
    as.Pairwise fun a b => m.compare a b = .lt := by
  have hapart : as.Pairwise (· ≠ ·) := hnodup
  refine (ha.and hapart).imp_of_mem fun {a b} hma hmb hab => ?_
  cases hc : m.compare a b with
  | lt => rfl
  | eq => exact absurd (eq_of_compare_eq hm hs (hin a hma) (hin b hmb) hc) hab.2
  | gt => simp [hc] at hab

theorem ascending_sortHandles (ht : Std.TransCmp m.policy.compare) (as : List Handle) :
    Ascending m.compare (m.sortHandles as) := by
  have := transCmp_compare ht
  exact ascending_sortBy as

/-- A cell that is frozen was so before and is as it was, or it was put in order. -/
theorem Change.frozen_cases (hchange : m.Change n n' v) (hf : (n'.cell d r).frozen = true) :
    ((n.cell d r).frozen = true ∧ n'.targets d r = n.targets d r) ∨
      n'.targets d r = m.sortHandles (n.targets d r) := by
  rcases hchange.cells_cases with ⟨d', r', t, rfl, -⟩ | ⟨-, hcell⟩
  · rw [ClassNode.record_frozen] at hf
    exact Or.inl ⟨hf, congrArg Cell.targets (ClassNode.cell_record_of_frozen hf)⟩
  · rcases hcell d r with e | ⟨-, e⟩
    · exact Or.inl ⟨e ▸ hf, congrArg Cell.targets e⟩
    · exact Or.inr (congrArg Cell.targets e)

/-- Every frozen cell is in order. -/
def FrozenAscending (m : ClassModel) : Prop :=
  ∀ i d r, ((m.classAt i).cell d r).frozen = true → Ascending m.compare ((m.classAt i).targets d r)

theorem FrozenAscending.move (hf : FrozenAscending m) (hm : WellFormed m) (ht : Std.TransCmp m.policy.compare)
    (hmove : Move m m' v) : FrozenAscending m' := by
  intro i d r hfrozen
  -- the targets were classes of the model before, so they compare as before
  have hkeep {xs : List Handle} (hxs : Ascending m.compare xs) (hin : ∀ x ∈ xs, x ∈ (m.classAt i).targets d r) :
      Ascending m'.compare xs := by
    refine List.Pairwise.imp_of_mem (fun {a b} ha hb hab => ?_) hxs
    have hold (x : Handle) (hx : x ∈ xs) : (m'.classAt x).attributes = (m.classAt x).attributes :=
      congrArg Element.attributes (hmove.element (hm.targets i d r x (hin x hx)).1)
    rwa [compare, hmove.policy, hold a ha, hold b hb]
  rcases hmove.moved i with e | ⟨rfl, e, ps, hnew⟩ | ⟨w, -, hchange⟩
  · rw [e] at hfrozen ⊢
    exact hkeep (hf i d r hfrozen) fun x hx => hx
  · rw [hnew, classAt_extend_size] at hfrozen
    simp [ClassNode.cell] at hfrozen
  · rcases hchange.frozen_cases hfrozen with ⟨hold, e⟩ | e <;> rw [e]
    · exact hkeep (hf i d r hold) fun x hx => hx
    · exact hkeep (ascending_sortHandles ht _) fun x hx => (mem_sortBy m.compare).1 hx

theorem Moves.frozenAscending {policy : Policy} (ht : Std.TransCmp policy.compare) (hmoves : Moves (empty policy) m) :
    FrozenAscending m := by
  have hall : Std.TransCmp m.policy.compare ∧ WellFormed m ∧ FrozenAscending m := by
    refine hmoves.invariant
      (P := fun m => Std.TransCmp m.policy.compare ∧ WellFormed m ∧ FrozenAscending m) ?_ ?_
    · rintro m m' v hmove ⟨ht, hm, hf⟩
      exact ⟨hmove.policy ▸ ht, hm.move hmove, hf.move hm ht hmove⟩
    · refine ⟨ht, wellFormed_empty policy, fun i d r hfrozen => ?_⟩
      rw [classAt_of_size_le (Nat.zero_le i)] at hfrozen
      simp [ClassNode.cell] at hfrozen
  exact hall.2.2

end ClassModel

end ClassAtlas
