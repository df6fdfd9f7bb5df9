/-!
Directed graphs given by their edges in the order in which these were added, and the search for a cycle
in two depth-first passes. The first lists the nodes in the order in which their searches end; the second
takes them from the last to the first and walks against the edges. Where there is no cycle, no walk gets
beyond the node it starts from.
-/

namespace ClassAtlas

structure EdgeGraph where
  /-- The nodes are the numbers below it. -/
  size : Nat
  edges : List (Nat × Nat) := []

namespace EdgeGraph

/-- The nodes that edges lead to from a node, by the latest edge first. -/
def successors (g : EdgeGraph) (n : Nat) : List Nat :=
  ((g.edges.filter fun e => e.1 = n).map (·.2)).reverse

/-- The nodes that edges come from to a node, by the latest edge first. -/
def predecessors (g : EdgeGraph) (n : Nat) : List Nat :=
  ((g.edges.filter fun e => e.2 = n).map (·.1)).reverse

/-- Puts nodes on a stack one after the other, without those that were discovered before; the last one
ends up on top. -/
def stackFresh (discovered nodes stack : List Nat) : List Nat :=
  (nodes.filter fun n => n ∉ discovered).reverse ++ stack

/-- Where the first pass stands. -/
structure Search where
  /-- Nodes to look at, the top first. A node may wait here more than once. -/
  stack : List Nat := []
  discovered : List Nat := []
  /-- Nodes whose search has ended, in the order in which it did. -/
  finished : List Nat := []

/-- A look at the node on top of the stack. A new one is discovered and stays, below its successors; for
one that was discovered before the search has ended. -/
def look (g : EdgeGraph) (n : Nat) (rest : List Nat) (s : Search) : Search :=
  if n ∈ s.discovered then
    { s with
      stack := rest
      finished := if n ∈ s.finished then s.finished else s.finished ++ [n] }
  else
    { s with
      stack := stackFresh (n :: s.discovered) (g.successors n) (n :: rest)
      discovered := n :: s.discovered }

/-- Bound on the looks that a search still takes: edges that wait for their source to be discovered weigh
more than the stack entries they may become, and a new node on top is looked at twice. -/
def work (g : EdgeGraph) (s : Search) : Nat :=
  4 * (g.edges.filter fun e => e.1 ∉ s.discovered).length + 2 * s.stack.length +
    match s.stack with
    | [] => 0
    | n :: _ => if n ∈ s.discovered then 0 else 1

theorem length_successors (g : EdgeGraph) (n : Nat) :
    (g.successors n).length = (g.edges.filter fun e => e.1 = n).length := by simp [successors]

theorem length_waiting {discovered : List Nat} {n : Nat} (new : n ∉ discovered)
    (edges : List (Nat × Nat)) :
    (edges.filter fun e => e.1 ∉ discovered).length =
      (edges.filter fun e => e.1 ∉ n :: discovered).length +
        (edges.filter fun e => e.1 = n).length := by
  induction edges with
  | nil => rfl
  | cons e es ih =>
    by_cases source : e.1 = n
    · simp_all
      omega
    · by_cases known : e.1 ∈ discovered
      · simpa [source, known] using ih
      · simp only [List.mem_cons, not_or, decide_not] at ih ⊢
        simp [source, known, ih]
        omega

theorem length_stackFresh_le (discovered nodes stack : List Nat) :
    (stackFresh discovered nodes stack).length ≤ nodes.length + stack.length := by
  have := List.length_filter_le (fun n => n ∉ discovered) nodes
  simp only [stackFresh, List.length_append, List.length_reverse]
  omega

theorem work_look_lt {g : EdgeGraph} {s : Search} {n : Nat} {rest : List Nat} (top : s.stack = n :: rest) :
    g.work (g.look n rest s) < g.work s := by
  unfold look
  split
  · rename_i known
    simp only [work, top, known, if_true, List.length_cons]
    cases rest with
    | nil => simp
    | cons m _ => dsimp only; split <;> omega
  · rename_i new
    have waiting := length_waiting new g.edges
    rw [← length_successors] at waiting
    have pushed := length_stackFresh_le (n :: s.discovered) (g.successors n) (n :: rest)
    simp only [work, top, new, if_false, List.length_cons] at pushed ⊢
    cases none_left : g.successors n with
    | nil => simp_all [stackFresh]
    | cons m _ =>
      have : 0 < (g.successors n).length := by simp [none_left]
      rw [none_left] at waiting pushed this
      split <;> (try split) <;> omega

/-- Looks at one node after the other until none waits. -/
def explore (g : EdgeGraph) (s : Search) : Search :=
  match _ : s.stack with
  | [] => s
  | n :: rest => g.explore (g.look n rest s)
termination_by g.work s
decreasing_by exact work_look_lt (by assumption)

/-- A search of the part that the nodes so far have not reached. -/
def exploreFrom (g : EdgeGraph) (s : Search) (n : Nat) : Search :=
  if n ∈ s.discovered then s else g.explore { s with stack := [n] }

/-- All nodes in the order in which their searches end. -/
def finishOrder (g : EdgeGraph) : List Nat :=
  ((List.range g.size).foldl g.exploreFrom {}).finished

/-- The next node of a walk against the edges, with the nodes discovered and the stack after it. -/
def nextVisit (g : EdgeGraph) (discovered : List Nat) :
    List Nat → Option (Nat × List Nat × List Nat)
  | [] => none
  | n :: rest =>
    if n ∈ discovered then g.nextVisit discovered rest
    else some (n, n :: discovered, stackFresh (n :: discovered) (g.predecessors n) rest)

/-- Walks from each node in turn. The second node visited from the same start is the answer. -/
def secondVisit (g : EdgeGraph) (discovered : List Nat) : List Nat → Option Nat
  | [] => none
  | n :: nodes =>
    match g.nextVisit discovered [n] with
    | none => g.secondVisit discovered nodes
    | some (_, discovered, stack) =>
      match g.nextVisit discovered stack with
      | none => g.secondVisit discovered nodes
      | some (m, _, _) => some m

/-- A node on a cycle, if there is one. -/
def cycle? (g : EdgeGraph) : Option Nat := g.secondVisit [] g.finishOrder.reverse

end EdgeGraph

end ClassAtlas
