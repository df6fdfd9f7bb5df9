/-!
Cells: the collections of related classes. An open cell keeps its targets in the order in which they
came, each once, and beside them as a set to look them up in; a frozen cell no longer changes.
-/

namespace ClassAtlas

/-- Number of a class in its model. -/
abbrev Handle := Nat

structure Cell where
  targets : List Handle := []
  /-- The targets as a set; a frozen cell takes no more and needs none. -/
  seen : List Handle := []
  frozen : Bool := false
  mem_of_seen : ∀ h ∈ seen, h ∈ targets := by simp
  seen_of_mem : frozen = false → ∀ h ∈ targets, h ∈ seen := by simp
deriving DecidableEq

namespace Cell

/-- The target is appended unless the cell has seen it. -/
def insert (c : Cell) (target : Handle) : Cell :=
  if target ∈ c.seen then c
  else
    { c with
      targets := c.targets ++ [target]
      seen := target :: c.seen
      mem_of_seen := by simpa [or_comm] using fun h hs => Or.inr (c.mem_of_seen h hs)
      seen_of_mem := by simpa [or_comm] using fun isOpen h hm => Or.inr (c.seen_of_mem isOpen h hm) }

/-- Ends the growth of a cell and puts its targets in order. -/
def freeze (c : Cell) (order : List Handle → List Handle) : Cell :=
  { targets := order c.targets, frozen := true }

theorem mem_insert {c : Cell} {target other : Handle} :
    other ∈ (c.insert target).targets ↔ other = target ∨ other ∈ c.targets := by
  unfold insert
  split
  · rename_i known
    constructor
    · exact Or.inr
    · rintro (rfl | h)
      · exact c.mem_of_seen _ known
      · exact h
  · simp [or_comm]

@[simp] theorem frozen_insert (c : Cell) (target : Handle) : (c.insert target).frozen = c.frozen := by
  unfold insert
  split <;> rfl

theorem prefix_insert (c : Cell) (target : Handle) : c.targets <+: (c.insert target).targets := by
  unfold insert
  split
  · exact List.prefix_refl _
  · exact List.prefix_append _ _

theorem nodup_insert {c : Cell} (isOpen : c.frozen = false) (h : c.targets.Nodup) (target : Handle) :
    (c.insert target).targets.Nodup := by
  unfold insert
  split
  · exact h
  · rename_i fresh
    exact List.nodup_append.2 ⟨h, by simp, fun a ha b hb e => by
      rw [List.mem_singleton] at hb
      exact fresh (hb ▸ e ▸ c.seen_of_mem isOpen a ha)⟩

theorem seen_insert_perm {c : Cell} (h : c.seen.Perm c.targets) (target : Handle) :
    (c.insert target).seen.Perm (c.insert target).targets := by
  unfold insert
  split
  · exact h
  · exact (h.cons target).trans (List.perm_append_singleton target c.targets).symm

end Cell

end ClassAtlas
