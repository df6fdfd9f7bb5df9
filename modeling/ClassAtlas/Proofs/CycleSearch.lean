import ClassAtlas.Proofs.FinishOrder
import Mathlib.Data.List.Nodup

/-! The second pass finds a node on a cycle if there is one (`cycle?_sound`, `cycle?_complete`). A walk
that gets beyond its start meets a source that is finished before its target, and `finishOrder_back` closes
the cycle; where no walk does, every edge leads to a node that is finished earlier. -/

namespace ClassAtlas

namespace EdgeGraph

variable {g : EdgeGraph} {discovered nodes : List Nat} {n c : Nat}

theorem nextVisit_of_fresh {stack : List Nat} (h : ∀ m ∈ stack, m ∉ discovered) :
    (g.nextVisit discovered stack).map (·.1) = stack.head? := by
  cases stack with
  | nil => rfl
  | cons m rest => simp [nextVisit, h m (List.mem_cons_self ..)]

/-- The predecessors of a node that a walk from it goes on to. -/
def fresh (g : EdgeGraph) (discovered : List Nat) (n : Nat) : List Nat :=
  stackFresh (n :: discovered) (g.predecessors n) []

theorem mem_fresh {m : Nat} : m ∈ g.fresh discovered n ↔ g.Adj m n ∧ m ∉ n :: discovered := by
  simp [fresh]

theorem secondVisit_known (hn : n ∈ discovered) :
    g.secondVisit discovered (n :: nodes) = g.secondVisit discovered nodes := by
  simp [secondVisit, nextVisit, hn]

theorem secondVisit_new (hn : n ∉ discovered) :
    g.secondVisit discovered (n :: nodes) =
      ((g.fresh discovered n).head?).or (g.secondVisit (n :: discovered) nodes) := by
  have hfresh : ∀ m ∈ g.fresh discovered n, m ∉ n :: discovered := fun m hm => (mem_fresh.1 hm).2
  have hnext := nextVisit_of_fresh (g := g) hfresh
  have hwalk : g.nextVisit discovered [n] = some (n, n :: discovered, g.fresh discovered n) := by
    simp [nextVisit, hn, fresh]
  rw [secondVisit, hwalk]
  dsimp only
  rw [← hnext]
  cases g.nextVisit (n :: discovered) (g.fresh discovered n) with
  | none => rfl
  | some visit => rfl

/-- The answer has an edge to a node of the list that comes before it there. -/
theorem secondVisit_sound (h : g.secondVisit discovered nodes = some c) :
    c ∉ discovered ∧ ∃ before n after, nodes = before ++ n :: after ∧ g.Adj c n ∧ c ∉ before ∧ c ≠ n := by
  induction nodes generalizing discovered with
  | nil => simp [secondVisit] at h
  | cons n nodes ih =>
    by_cases hn : n ∈ discovered
    · rw [secondVisit_known hn] at h
      obtain ⟨hc, before, i, after, rfl, he, hb, hi⟩ := ih h
      refine ⟨hc, n :: before, i, after, rfl, he, ?_, hi⟩
      rw [List.mem_cons, not_or]
      exact ⟨fun e => hc (e ▸ hn), hb⟩
    · rw [secondVisit_new hn, Option.or_eq_some_iff] at h
      rcases h with h | ⟨-, h⟩
      · obtain ⟨he, hc⟩ := mem_fresh.1 (List.mem_of_head? h)
        rw [List.mem_cons, not_or] at hc
        exact ⟨hc.2, [], n, nodes, rfl, he, by simp, hc.1⟩
      · obtain ⟨hc, before, i, after, rfl, he, hb, hi⟩ := ih h
        rw [List.mem_cons, not_or] at hc
        refine ⟨hc.2, n :: before, i, after, rfl, he, ?_, hi⟩
        rw [List.mem_cons, not_or]
        exact ⟨hc.1, hb⟩

/-- Without an answer every edge to a node of the list comes from a node before it, or from itself. -/
theorem secondVisit_complete (h : g.secondVisit discovered nodes = none)
    (hnodup : nodes.Nodup) (hapart : ∀ n ∈ nodes, n ∉ discovered) {before after : List Nat}
    (hsplit : nodes = before ++ n :: after) {m : Nat} (hm : g.Adj m n) :
    m ∈ discovered ∨ m ∈ before ∨ m = n := by
  induction nodes generalizing discovered before with
  | nil => simp at hsplit
  | cons i nodes ih =>
    have hi : i ∉ discovered := hapart i (List.mem_cons_self ..)
    rw [secondVisit_new hi, Option.or_eq_none_iff, List.head?_eq_none_iff] at h
    rw [List.nodup_cons] at hnodup
    cases before with
    | nil =>
      obtain ⟨rfl, rfl⟩ := List.cons.inj hsplit
      by_contra hno
      have hfresh : m ∈ g.fresh discovered i := mem_fresh.2 ⟨hm, by simp at hno ⊢; tauto⟩
      rw [h.1] at hfresh
      simp at hfresh
    | cons j before =>
      obtain ⟨rfl, hrest⟩ := List.cons.inj hsplit
      have hapart' : ∀ n ∈ nodes, n ∉ i :: discovered := by
        intro n hn
        rw [List.mem_cons, not_or]
        exact ⟨fun e => hnodup.1 (e ▸ hn), hapart n (List.mem_cons_of_mem i hn)⟩
      rcases ih h.2 hnodup.2 hapart' hrest with hd | hb | rfl
      · rcases List.mem_cons.1 hd with rfl | hd
        · exact Or.inr (Or.inl (List.mem_cons_self ..))
        · exact Or.inl hd
      · exact Or.inr (Or.inl (List.mem_cons_of_mem i hb))
      · exact Or.inr (Or.inr rfl)

/-- Before a node in the reversed order stand those that are finished later. -/
theorem idxOf_lt_of_reverse {order before after : List Nat} (hnodup : order.Nodup)
    (hsplit : order.reverse = before ++ n :: after) {m : Nat} (hm : m ∈ order) (hmn : m ≠ n) :
    m ∈ before ↔ order.idxOf n < order.idxOf m := by
  obtain rfl : order = after.reverse ++ n :: before.reverse := by
    rw [← List.reverse_reverse order, hsplit]; simp
  have hn : n ∉ after.reverse := by
    intro hn
    exact (List.nodup_append.1 hnodup).2.2 n hn n (List.mem_cons_self ..) rfl
  have hplace : (after.reverse ++ n :: before.reverse).idxOf n = after.reverse.length := by
    rw [List.idxOf_append_of_notMem hn]; simp
  rw [hplace]
  constructor
  · intro hb
    have hma : m ∉ after.reverse := by
      intro ha
      exact (List.nodup_append.1 hnodup).2.2 m ha m
        (List.mem_cons_of_mem n (List.mem_reverse.2 hb)) rfl
    rw [List.idxOf_append_of_notMem hma, List.idxOf_cons_ne _ (Ne.symm hmn)]
    omega
  · intro hlt
    rcases List.mem_append.1 hm with ha | hb
    · have hma := List.idxOf_lt_length_iff.2 ha
      rw [List.idxOf_append_of_mem ha] at hlt
      omega
    · exact List.mem_reverse.1 ((List.mem_cons.1 hb).resolve_left hmn)

/-- Edges lead from a node of the graph to another one. -/
structure Simple (g : EdgeGraph) : Prop where
  source : ∀ {a b}, g.Adj a b → a < g.size
  target : ∀ {a b}, g.Adj a b → b < g.size
  loopless : ∀ {a b}, g.Adj a b → a ≠ b

theorem cycle?_sound (hg : g.Simple) (h : g.cycle? = some c) : Relation.TransGen g.Adj c c := by
  obtain ⟨-, before, n, after, hsplit, he, hb, hcn⟩ := secondVisit_sound h
  have hc : c ∈ g.finishOrder := mem_finishOrder (hg.source he)
  rcases finishOrder_back hc he with hlt | hback
  · exact absurd ((idxOf_lt_of_reverse g.finishOrder_nodup hsplit hc hcn).2 hlt) hb
  · exact Relation.TransGen.head' he hback

theorem idxOf_lt_of_cycle?_none (hg : g.Simple) (h : g.cycle? = none) {a b : Nat} (he : g.Adj a b) :
    g.finishOrder.idxOf b < g.finishOrder.idxOf a := by
  have hb : b ∈ g.finishOrder.reverse := List.mem_reverse.2 (mem_finishOrder (hg.target he))
  obtain ⟨before, after, hsplit⟩ := List.append_of_mem hb
  have hnodup : g.finishOrder.reverse.Nodup := List.nodup_reverse.2 g.finishOrder_nodup
  rcases secondVisit_complete h hnodup (by simp) hsplit he with hd | hbef | rfl
  · simp at hd
  · exact (idxOf_lt_of_reverse g.finishOrder_nodup hsplit (mem_finishOrder (hg.source he))
      (hg.loopless he)).1 hbef
  · exact absurd rfl (hg.loopless he)

theorem cycle?_complete (hg : g.Simple) (h : g.cycle? = none) (n : Nat) : ¬ Relation.TransGen g.Adj n n := by
  have hdesc : ∀ a b, Relation.TransGen g.Adj a b → g.finishOrder.idxOf b < g.finishOrder.idxOf a := by
    intro a b hab
    induction hab with
    | single he => exact idxOf_lt_of_cycle?_none hg h he
    | tail _ he ih => exact (idxOf_lt_of_cycle?_none hg h he).trans ih
  exact fun hn => lt_irrefl _ (hdesc n n hn)

theorem cycle?_eq_none_iff (hg : g.Simple) : g.cycle? = none ↔ ∀ n, ¬ Relation.TransGen g.Adj n n := by
  refine ⟨cycle?_complete hg, fun h => ?_⟩
  rw [Option.eq_none_iff_forall_ne_some]
  exact fun c hc => h c (cycle?_sound hg hc)

end EdgeGraph

end ClassAtlas
