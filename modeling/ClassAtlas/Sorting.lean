/-!
Stable sorting by a three-way comparison: an element is put in front of the first one that it does
not come after, so elements that compare equal keep their order.
-/

namespace ClassAtlas

variable {α : Type}

def insertBy (compare : α → α → Ordering) (a : α) : List α → List α
  | [] => [a]
  | b :: bs => if compare a b = .gt then b :: insertBy compare a bs else a :: b :: bs

def sortBy (compare : α → α → Ordering) : List α → List α
  | [] => []
  | a :: as => insertBy compare a (sortBy compare as)

theorem insertBy_perm (compare : α → α → Ordering) (a : α) (as : List α) :
    (insertBy compare a as).Perm (a :: as) := by
  induction as with
  | nil => exact .refl _
  | cons b bs ih =>
    unfold insertBy
    split
    · exact (ih.cons b).trans (.swap a b bs)
    · exact .refl _

theorem sortBy_perm (compare : α → α → Ordering) (as : List α) : (sortBy compare as).Perm as := by
  induction as with
  | nil => exact .refl _
  | cons a as ih => exact (insertBy_perm compare a _).trans (ih.cons a)

@[simp] theorem length_sortBy (compare : α → α → Ordering) (as : List α) :
    (sortBy compare as).length = as.length := (sortBy_perm compare as).length_eq

@[simp] theorem mem_sortBy (compare : α → α → Ordering) {as : List α} {a : α} :
    a ∈ sortBy compare as ↔ a ∈ as := (sortBy_perm compare as).mem_iff

end ClassAtlas
