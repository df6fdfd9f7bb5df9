import ClassAtlas.Proofs.StrictOrder

/-! Sorting keeps the order of elements that compare equal, so where the comparison is a total preorder it is the
stable sort (`stablySorted_sortBy`), and what is in order it leaves as it is (`sortBy_of_ascending`). It looks at the
elements of its list only (`sortBy_congr`). -/

namespace ClassAtlas

variable {α : Type} {cmp cmp' : α → α → Ordering} {as bs : List α}

/-- The second list is the first one sorted. Under a total preorder it is in order, and elements that compare equal
stand in the order in which they stood. -/
structure StablySorted (cmp : α → α → Ordering) (as bs : List α) : Prop where
  eq : bs = sortBy cmp as
  perm : bs.Perm as
  ascending : Std.TransCmp cmp → Ascending cmp bs
  stable : Std.TransCmp cmp → ∀ a, bs.filter (fun b => cmp a b = .eq) = as.filter fun b => cmp a b = .eq

/-- An element only passes those that it compares as greater than, and these are not equal to anything it is equal to. -/
theorem filter_insertBy [Std.TransCmp cmp] (x a : α) (as : List α) :
    (insertBy cmp a as).filter (fun b => cmp x b = .eq) = (a :: as).filter fun b => cmp x b = .eq := by
  induction as with
  | nil => rfl
  | cons b bs ih =>
    unfold insertBy
    split
    · rename_i hgt
      have hapart : ¬ (cmp x a = .eq ∧ cmp x b = .eq) := by
        rintro ⟨ha, hb⟩
        rw [Std.TransCmp.eq_trans (Std.OrientedCmp.eq_symm ha) hb] at hgt
        cases hgt
      rw [List.filter_cons, ih]
      by_cases ha : cmp x a = .eq
      · have hb : cmp x b ≠ .eq := fun hb => hapart ⟨ha, hb⟩
        simp [ha, hb]
      · simp [ha, List.filter_cons]
    · rfl

theorem filter_sortBy [Std.TransCmp cmp] (x : α) (as : List α) :
    (sortBy cmp as).filter (fun b => cmp x b = .eq) = as.filter fun b => cmp x b = .eq := by
  induction as with
  | nil => rfl
  | cons a as ih => rw [sortBy, filter_insertBy, List.filter_cons, List.filter_cons, ih]

theorem stablySorted_sortBy (cmp : α → α → Ordering) (as : List α) : StablySorted cmp as (sortBy cmp as) where
  eq := rfl
  perm := sortBy_perm cmp as
  ascending _ := ascending_sortBy as
  stable _ a := filter_sortBy a as

/-- What is in order stays as it is, elements that compare equal too. -/
theorem sortBy_of_ascending (h : Ascending cmp as) : sortBy cmp as = as := by
  induction as with
  | nil => rfl
  | cons a as ih =>
    obtain ⟨hfirst, hrest⟩ := List.pairwise_cons.1 h
    rw [sortBy, ih hrest]
    cases as with
    | nil => rfl
    | cons b bs =>
      have hab : (cmp a b).isLE := hfirst b (List.mem_cons_self ..)
      rw [insertBy, if_neg (Ordering.isLE_iff_ne_gt.1 hab)]

theorem sortBy_sortBy [Std.TransCmp cmp] (as : List α) : sortBy cmp (sortBy cmp as) = sortBy cmp as :=
  sortBy_of_ascending (ascending_sortBy as)

theorem insertBy_congr {a : α} (h : ∀ b ∈ as, cmp a b = cmp' a b) : insertBy cmp a as = insertBy cmp' a as := by
  induction as with
  | nil => rfl
  | cons b bs ih =>
    rw [insertBy, insertBy, h b (List.mem_cons_self ..), ih fun c hc => h c (List.mem_cons_of_mem b hc)]

theorem sortBy_congr (h : ∀ a ∈ as, ∀ b ∈ as, cmp a b = cmp' a b) : sortBy cmp as = sortBy cmp' as := by
  induction as with
  | nil => rfl
  | cons a as ih =>
    have htail : ∀ x ∈ as, ∀ b ∈ as, cmp x b = cmp' x b :=
      fun x hx b hb => h x (List.mem_cons_of_mem a hx) b (List.mem_cons_of_mem a hb)
    rw [sortBy, sortBy, ih htail]
    exact insertBy_congr fun b hb =>
      h a (List.mem_cons_self ..) b (List.mem_cons_of_mem a ((mem_sortBy cmp').1 hb))

theorem StablySorted.congr (hs : StablySorted cmp as bs) (h : ∀ a ∈ as, ∀ b ∈ as, cmp a b = cmp' a b) :
    StablySorted cmp' as bs := by
  rw [hs.eq, sortBy_congr h]
  exact stablySorted_sortBy cmp' as

/-- Sorting by a key can sort the keyed elements instead. -/
theorem sortBy_map {β : Type} (f : β → α) (bs : List β) :
    sortBy cmp (bs.map f) = (sortBy (fun a b => cmp (f a) (f b)) bs).map f := by
  induction bs with
  | nil => rfl
  | cons b bs ih =>
    rw [List.map_cons, sortBy, sortBy, ih]
    generalize sortBy (fun a b => cmp (f a) (f b)) bs = cs
    induction cs with
    | nil => rfl
    | cons c cs ihc =>
      rw [List.map_cons, insertBy, insertBy, ihc]
      split <;> rfl

end ClassAtlas
