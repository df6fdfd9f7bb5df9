import ClassAtlas.Model.EdgeGraph
import Mathlib.Data.List.Basic
import Mathlib.Data.List.TakeWhile
import Mathlib.Logic.Relation

/-! The first pass finishes every node once, and an edge whose source is finished before its target has a
way back from the target to the source (`finishOrder_back`). Nothing is assumed about the graph. -/

namespace ClassAtlas

namespace EdgeGraph

def Adj (g : EdgeGraph) (a b : Nat) : Prop := (a, b) ∈ g.edges

@[simp] theorem mem_successors {g : EdgeGraph} {a b : Nat} : b ∈ g.successors a ↔ g.Adj a b := by
  simp [successors, Adj]

@[simp] theorem mem_predecessors {g : EdgeGraph} {a b : Nat} : a ∈ g.predecessors b ↔ g.Adj a b := by
  simp [predecessors, Adj]

@[simp] theorem mem_stackFresh {discovered nodes stack : List Nat} {n : Nat} :
    n ∈ stackFresh discovered nodes stack ↔ (n ∈ nodes ∧ n ∉ discovered) ∨ n ∈ stack := by
  simp [stackFresh]

namespace Search

/-- A node whose search is under way. -/
def Entered (s : Search) (n : Nat) : Prop := n ∈ s.discovered ∧ n ∉ s.finished

/-- What lies on the stack above the topmost copy of a node: what its own search has put there. -/
def above (s : Search) (n : Nat) : List Nat := s.stack.takeWhile (· ≠ n)

/-- The invariant of the first pass. An edge out of a node under way leads to a node that was discovered or
lies above it; everything above it is reached from it. -/
structure Valid (g : EdgeGraph) (s : Search) : Prop where
  nodup : s.finished.Nodup
  known : ∀ n ∈ s.finished, n ∈ s.discovered
  waits : ∀ n, s.Entered n → n ∈ s.stack
  seen : ∀ n, s.Entered n → ∀ m, g.Adj n m → m ∈ s.discovered ∨ m ∈ s.above n
  reached : ∀ n, s.Entered n → ∀ m ∈ s.above n, Relation.ReflTransGen g.Adj n m
  back : ∀ n ∈ s.finished, ∀ m, g.Adj n m →
    s.finished.idxOf m < s.finished.idxOf n ∨ Relation.ReflTransGen g.Adj m n

end Search

open Search

variable {g : EdgeGraph} {s : Search} {n : Nat} {rest : List Nat}

theorem above_of_ne (hs : s.stack = n :: rest) {u : Nat} (hu : u ≠ n) :
    s.above u = n :: rest.takeWhile (· ≠ u) := by
  simp [above, hs, Ne.symm hu]

theorem above_top (hs : s.stack = n :: rest) : s.above n = [] := by
  simp [above, hs]

section New

variable (hn : n ∉ s.discovered)

include hn

theorem look_new : g.look n rest s = { s with
    stack := stackFresh (n :: s.discovered) (g.successors n) (n :: rest)
    discovered := n :: s.discovered } := by simp [look, hn]

/-- The successors put on the stack are new, so none of them hides the copy of a node under way. -/
theorem above_look_new {u : Nat} (hu : u ∈ n :: s.discovered) : (g.look n rest s).above u =
    ((g.successors n).filter fun m => m ∉ n :: s.discovered).reverse ++ (n :: rest).takeWhile (· ≠ u) := by
  rw [look_new hn]
  unfold above stackFresh
  refine List.takeWhile_append_of_pos fun m hm => ?_
  rw [List.mem_reverse, List.mem_filter, decide_eq_true_eq] at hm
  rw [decide_eq_true_eq]
  exact fun e => hm.2 (e ▸ hu)

theorem entered_look_new {u : Nat} (hu : (g.look n rest s).Entered u) : u = n ∨ s.Entered u := by
  obtain ⟨hd, hf⟩ := hu
  rw [look_new hn] at hd hf
  exact (List.mem_cons.1 hd).imp_right fun hd => ⟨hd, hf⟩

/-- A node that is new to the search is entered. -/
theorem valid_enter (h : s.Valid g) (hs : s.stack = n :: rest) : (g.look n rest s).Valid g := by
  have hpushed : ∀ m ∈ ((g.successors n).filter fun m => m ∉ n :: s.discovered).reverse, g.Adj n m := by
    intro m hm
    rw [List.mem_reverse, List.mem_filter, mem_successors] at hm
    exact hm.1
  have hdisc : (g.look n rest s).discovered = n :: s.discovered := by rw [look_new hn]
  refine ⟨by rw [look_new hn]; exact h.nodup, ?known, ?waits, ?seen, ?reached,
    by rw [look_new hn]; exact h.back⟩
  case known =>
    intro m hm
    rw [look_new hn] at hm ⊢
    exact List.mem_cons_of_mem n (h.known m hm)
  case waits =>
    intro u hu
    have hstack : ∀ m ∈ s.stack, m ∈ (g.look n rest s).stack := by
      intro m hm
      rw [look_new hn]
      exact mem_stackFresh.2 (Or.inr (hs ▸ hm))
    rcases entered_look_new hn hu with rfl | hu
    · exact hstack u (by simp [hs])
    · exact hstack u (h.waits u hu)
  case seen =>
    intro u hu m hm
    rw [above_look_new hn (hdisc ▸ hu.1), hdisc]
    by_cases hm' : m ∈ n :: s.discovered
    · exact Or.inl hm'
    right
    rcases entered_look_new hn hu with rfl | hu
    · refine List.mem_append_left _ ?_
      rw [List.mem_reverse, List.mem_filter]
      exact ⟨mem_successors.2 hm, by simpa using hm'⟩
    · rcases h.seen u hu m hm with hd | ha
      · exact absurd (List.mem_cons_of_mem n hd) hm'
      · rw [above, hs] at ha
        exact List.mem_append_right _ ha
  case reached =>
    intro u hu m hm
    rw [above_look_new hn (hdisc ▸ hu.1), List.mem_append] at hm
    rcases entered_look_new hn hu with rfl | hu
    · rcases hm with hm | hm
      · exact Relation.ReflTransGen.single (hpushed m hm)
      · simp at hm
    · have hun : u ≠ n := fun e => hn (e ▸ hu.1)
      rcases hm with hm | hm
      · have htop : n ∈ s.above u := by rw [above_of_ne hs hun]; exact List.mem_cons_self ..
        exact (h.reached u hu n htop).tail (hpushed m hm)
      · exact h.reached u hu m (by rw [above, hs]; exact hm)

end New

section Known

variable (hn : n ∈ s.discovered)

include hn

theorem look_known : g.look n rest s = { s with
    stack := rest
    finished := if n ∈ s.finished then s.finished else s.finished ++ [n] } := by simp [look, hn]

theorem mem_finished_look {u : Nat} : u ∈ (g.look n rest s).finished ↔ u ∈ s.finished ∨ u = n := by
  rw [look_known hn]
  dsimp only
  split
  · rename_i hf
    exact ⟨Or.inl, fun hu => hu.elim id fun e => e ▸ hf⟩
  · rw [List.mem_append, List.mem_singleton]

theorem entered_look_known {u : Nat} (hu : (g.look n rest s).Entered u) : u ≠ n ∧ s.Entered u := by
  obtain ⟨hd, hf⟩ := hu
  rw [mem_finished_look hn, not_or] at hf
  rw [look_known hn] at hd
  exact ⟨hf.2, hd, hf.1⟩

theorem above_look_known (hs : s.stack = n :: rest) {u : Nat} (hu : u ≠ n) :
    s.above u = n :: (g.look n rest s).above u := by
  rw [above_of_ne hs hu, look_known hn]
  rfl

end Known

/-- One more node is finished: the places of the others stay, and none of its targets that is not finished
comes before it. -/
theorem back_append {finished : List Nat} (hf : n ∉ finished)
    (hback : ∀ u ∈ finished, ∀ m, g.Adj u m →
      finished.idxOf m < finished.idxOf u ∨ Relation.ReflTransGen g.Adj m u)
    (hnew : ∀ m, g.Adj n m → m ∈ finished ∨ Relation.ReflTransGen g.Adj m n) :
    ∀ u ∈ finished ++ [n], ∀ m, g.Adj u m →
      (finished ++ [n]).idxOf m < (finished ++ [n]).idxOf u ∨ Relation.ReflTransGen g.Adj m u := by
  intro u hu m hm
  rcases List.mem_append.1 hu with hu | hu
  · refine (hback u hu m hm).imp_left fun hlt => ?_
    have hm' : m ∈ finished := List.idxOf_lt_length_iff.1 (hlt.trans (List.idxOf_lt_length_iff.2 hu))
    rwa [List.idxOf_append_of_mem hu, List.idxOf_append_of_mem hm']
  · obtain rfl := List.mem_singleton.1 hu
    refine (hnew m hm).imp_left fun hm' => ?_
    rw [List.idxOf_append_of_mem hm', List.idxOf_append_of_notMem hf]
    exact Nat.lt_of_lt_of_le (List.idxOf_lt_length_iff.2 hm') (Nat.le_add_right ..)

/-- A target of the node on top is finished, or it is under way itself and reaches the top of the stack. -/
theorem Search.Valid.target_of_top (h : s.Valid g) (hs : s.stack = n :: rest) (hn : s.Entered n) {m : Nat}
    (hm : g.Adj n m) : m ∈ s.finished ∨ Relation.ReflTransGen g.Adj m n := by
  have hm' : m ∈ s.discovered := by
    rcases h.seen n hn m hm with hd | ha
    · exact hd
    · rw [above_top hs] at ha
      simp at ha
  by_cases hf : m ∈ s.finished
  · exact Or.inl hf
  right
  by_cases hmn : m = n
  · rw [hmn]
  · exact h.reached m ⟨hm', hf⟩ n (by rw [above_of_ne hs hmn]; exact List.mem_cons_self ..)

/-- A node that was discovered before leaves the stack. -/
theorem valid_leave (h : s.Valid g) (hs : s.stack = n :: rest) (hn : n ∈ s.discovered) :
    (g.look n rest s).Valid g := by
  refine ⟨?nodup, ?known, ?waits, ?seen, ?reached, ?back⟩
  case nodup =>
    rw [look_known hn]
    dsimp only
    split
    · exact h.nodup
    · rename_i hf
      exact List.nodup_append.2 ⟨h.nodup, by simp, fun a ha b hb e => hf (by simp_all)⟩
  case known =>
    intro u hu
    rw [look_known hn]
    rcases (mem_finished_look hn).1 hu with hu | rfl
    · exact h.known u hu
    · exact hn
  case waits =>
    intro u hu
    obtain ⟨hun, hu⟩ := entered_look_known hn hu
    have := h.waits u hu
    rw [hs, List.mem_cons] at this
    rw [look_known hn]
    exact this.resolve_left hun
  case seen =>
    intro u hu m hm
    obtain ⟨hun, hu⟩ := entered_look_known hn hu
    have hdisc : (g.look n rest s).discovered = s.discovered := by rw [look_known hn]
    rw [hdisc]
    rcases h.seen u hu m hm with hd | ha
    · exact Or.inl hd
    · rw [above_look_known hn hs hun, List.mem_cons] at ha
      exact ha.imp_left fun e : m = n => e ▸ hn
  case reached =>
    intro u hu m hm
    obtain ⟨hun, hu⟩ := entered_look_known hn hu
    exact h.reached u hu m (by rw [above_look_known hn hs hun]; exact List.mem_cons_of_mem n hm)
  case back =>
    rw [look_known hn]
    dsimp only
    split
    · exact h.back
    · rename_i hf
      exact back_append hf h.back fun m => h.target_of_top hs ⟨hn, hf⟩

theorem valid_look (h : s.Valid g) (hs : s.stack = n :: rest) : (g.look n rest s).Valid g := by
  by_cases hn : n ∈ s.discovered
  · exact valid_leave h hs hn
  · exact valid_enter hn h hs

theorem look_keeps {m : Nat} (hs : s.stack = n :: rest) (hm : m ∈ s.discovered ∨ m ∈ s.stack) :
    m ∈ (g.look n rest s).discovered ∨ m ∈ (g.look n rest s).stack := by
  unfold look
  split
  · rename_i hn
    rcases hm with hm | hm
    · exact Or.inl hm
    · rw [hs] at hm
      rcases List.mem_cons.1 hm with rfl | hm
      · exact Or.inl hn
      · exact Or.inr hm
  · rcases hm with hm | hm
    · exact Or.inl (List.mem_cons_of_mem n hm)
    · exact Or.inr (mem_stackFresh.2 (Or.inr (hs ▸ hm)))

/-- What the first pass has between two searches: nothing waits, and so every node that was discovered is
finished. -/
structure Settled (g : EdgeGraph) (s : Search) : Prop where
  valid : s.Valid g
  idle : s.stack = []

theorem Settled.finished (h : Settled g s) (hn : n ∈ s.discovered) : n ∈ s.finished := by
  by_contra hf
  have := h.valid.waits n ⟨hn, hf⟩
  rw [h.idle] at this
  simp at this

theorem explore_spec (h : s.Valid g) : Settled g (g.explore s) ∧
    ∀ m, m ∈ s.discovered ∨ m ∈ s.stack → m ∈ (g.explore s).discovered := by
  fun_induction explore g s with
  | case1 s hs => exact ⟨⟨h, hs⟩, fun m hm => hm.resolve_right (by rw [hs]; simp)⟩
  | case2 s n rest hs ih =>
    obtain ⟨hset, hkeep⟩ := ih (valid_look h hs)
    exact ⟨hset, fun m hm => hkeep m (look_keeps hs hm)⟩

theorem exploreFrom_spec (h : Settled g s) (n : Nat) : Settled g (g.exploreFrom s n) ∧
    ∀ m, m ∈ s.discovered ∨ m = n → m ∈ (g.exploreFrom s n).discovered := by
  unfold exploreFrom
  split
  · rename_i hn
    exact ⟨h, by rintro m (hm | rfl); exacts [hm, hn]⟩
  · have hnone : ∀ u, ¬ ({ s with stack := [n] } : Search).Entered u :=
      fun u hu => hu.2 (h.finished hu.1)
    have hvalid : ({ s with stack := [n] } : Search).Valid g :=
      ⟨h.valid.nodup, h.valid.known, fun u hu => absurd hu (hnone u),
        fun u hu => absurd hu (hnone u), fun u hu => absurd hu (hnone u), h.valid.back⟩
    obtain ⟨hset, hkeep⟩ := explore_spec hvalid
    exact ⟨hset, fun m hm => hkeep m (hm.imp id (by simp))⟩

theorem foldl_exploreFrom_spec (nodes : List Nat) (h : Settled g s) :
    Settled g (nodes.foldl g.exploreFrom s) ∧
      ∀ m, m ∈ s.discovered ∨ m ∈ nodes → m ∈ (nodes.foldl g.exploreFrom s).discovered := by
  induction nodes generalizing s with
  | nil => exact ⟨h, fun m hm => hm.resolve_right (by simp)⟩
  | cons n nodes ih =>
    obtain ⟨h', hkeep'⟩ := exploreFrom_spec h n
    obtain ⟨hset, hkeep⟩ := ih h'
    refine ⟨hset, fun m hm => hkeep m ?_⟩
    rw [List.mem_cons] at hm
    rcases hm with hm | rfl | hm
    · exact Or.inl (hkeep' m (Or.inl hm))
    · exact Or.inl (hkeep' m (Or.inr rfl))
    · exact Or.inr hm

theorem settled_empty (g : EdgeGraph) : Settled g {} :=
  ⟨⟨List.nodup_nil, by simp, by simp [Entered], by simp [Entered], by simp [Entered], by simp⟩, rfl⟩

theorem finishOrder_nodup (g : EdgeGraph) : g.finishOrder.Nodup :=
  (foldl_exploreFrom_spec (List.range g.size) (settled_empty g)).1.valid.nodup

theorem mem_finishOrder (hn : n < g.size) : n ∈ g.finishOrder := by
  obtain ⟨hset, hkeep⟩ := foldl_exploreFrom_spec (List.range g.size) (settled_empty g)
  exact hset.finished (hkeep n (Or.inr (List.mem_range.2 hn)))

/-- Where an edge leads to a node that is finished no earlier than its source, the source is reached from
there: the search of the target was under way when the source was finished. -/
theorem finishOrder_back {m : Nat} (hn : n ∈ g.finishOrder) (hm : g.Adj n m) :
    g.finishOrder.idxOf m < g.finishOrder.idxOf n ∨ Relation.ReflTransGen g.Adj m n :=
  (foldl_exploreFrom_spec (List.range g.size) (settled_empty g)).1.valid.back n hn m hm

end EdgeGraph

end ClassAtlas
