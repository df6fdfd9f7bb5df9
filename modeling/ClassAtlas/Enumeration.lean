/-!
Finite enumerations listed in their own order, and total maps over them. Main statements: a map is
determined by its values (`EnumMap.ext_get`), and reading it after a write gives the written value at
the written key and the old value elsewhere (`EnumMap.get_set`).
-/

namespace ClassAtlas

/-- A type whose values are listed once each; the list is the order of the enumeration. -/
class Enumeration (κ : Type) [DecidableEq κ] where
  all : List κ
  complete : ∀ k, k ∈ all
  nodup : all.Nodup

/-- The values of `κ` in their order. -/
def every (κ : Type) [DecidableEq κ] [Enumeration κ] : List κ := Enumeration.all

section Rank

variable {κ : Type} [DecidableEq κ] [Enumeration κ]

theorem mem_every (k : κ) : k ∈ every κ := Enumeration.complete k

theorem nodup_every : (every κ).Nodup := Enumeration.nodup

/-- Place of a value in the order of its enumeration, from zero. -/
def rank (k : κ) : Nat := (every κ).idxOf k

theorem rank_lt (k : κ) : rank k < (every κ).length := List.idxOf_lt_length_of_mem (mem_every k)

theorem getElem_rank (k : κ) (h : rank k < (every κ).length) : (every κ)[rank k] = k :=
  List.getElem_idxOf h

theorem rank_injective {a b : κ} (h : rank a = rank b) : a = b := by
  have ha := getElem_rank a (rank_lt a)
  have hb := getElem_rank b (rank_lt b)
  simp only [h] at ha
  exact ha.symm.trans hb

end Rank

instance {α β : Type} [DecidableEq α] [DecidableEq β] [Enumeration α] [Enumeration β] :
    Enumeration (α × β) where
  all := (every α).flatMap fun a => (every β).map fun b => (a, b)
  complete := fun (a, b) => by simp [mem_every]
  nodup := by
    rw [List.nodup_iff_pairwise_ne, List.pairwise_flatMap]
    refine ⟨fun a _ => ?_, ?_⟩
    · rw [List.pairwise_map]
      exact (List.nodup_iff_pairwise_ne.1 nodup_every).imp fun h e => h (congrArg Prod.snd e)
    · refine (List.nodup_iff_pairwise_ne.1 nodup_every).imp fun {a a'} h x hx y hy e => ?_
      simp only [List.mem_map] at hx hy
      obtain ⟨b, -, rfl⟩ := hx
      obtain ⟨b', -, rfl⟩ := hy
      exact h (congrArg Prod.fst e)

/-- A total map: one value per member of `κ`, kept in the order of the enumeration. -/
structure EnumMap (κ : Type) [DecidableEq κ] [Enumeration κ] (α : Type) where
  values : List α
  length_eq : values.length = (every κ).length

namespace EnumMap

variable {κ α β : Type} [DecidableEq κ] [Enumeration κ]

instance [DecidableEq α] : DecidableEq (EnumMap κ α) := fun m n =>
  decidable_of_iff (m.values = n.values) ⟨fun h => by cases m; cases n; simp_all, fun h => h ▸ rfl⟩

def ofFn (f : κ → α) : EnumMap κ α := ⟨(every κ).map f, List.length_map ..⟩

/-- The map of values that may be missing, unless one of them is. -/
def ofFn? (f : κ → Option α) : Option (EnumMap κ α) :=
  if h : ∀ k ∈ every κ, (f k).isSome then some (ofFn fun k => (f k).get (h k (mem_every k))) else none

def get (m : EnumMap κ α) (k : κ) : α :=
  m.values.get ⟨rank k, m.length_eq.symm ▸ rank_lt k⟩

def set (m : EnumMap κ α) (k : κ) (a : α) : EnumMap κ α := ofFn fun i => if i = k then a else m.get i

def modify (m : EnumMap κ α) (k : κ) (f : α → α) : EnumMap κ α := m.set k (f (m.get k))

/-- Every value is replaced by its image, which may depend on the key. -/
def mapWith (m : EnumMap κ α) (f : κ → α → β) : EnumMap κ β := ofFn fun k => f k (m.get k)

/-- The pairs of the map in the order of the enumeration. -/
def toList (m : EnumMap κ α) : List (κ × α) := (every κ).map fun k => (k, m.get k)

@[simp] theorem get_ofFn (f : κ → α) (k : κ) : (ofFn f).get k = f k := by
  simp [ofFn, get, getElem_rank]

theorem ofFn?_some (f : κ → α) : ofFn? (fun k => some (f k)) = some (ofFn f) := by simp [ofFn?]

theorem ext_get {m n : EnumMap κ α} (h : ∀ k, m.get k = n.get k) : m = n := by
  have values_eq : m.values = n.values := by
    refine List.ext_getElem (m.length_eq.trans n.length_eq.symm) fun i hm hn => ?_
    have hi : i < (every κ).length := m.length_eq ▸ hm
    have rank_eq : rank (every κ)[i] = i := List.Nodup.idxOf_getElem nodup_every i hi
    have := h (every κ)[i]
    simpa [get, rank_eq] using this
  cases m; cases n; simp_all

theorem get_set (m : EnumMap κ α) (k i : κ) (a : α) :
    (m.set k a).get i = if i = k then a else m.get i := by simp [set]

@[simp] theorem get_set_self (m : EnumMap κ α) (k : κ) (a : α) : (m.set k a).get k = a := by
  simp [get_set]

theorem get_set_ne (m : EnumMap κ α) {k i : κ} (h : i ≠ k) (a : α) : (m.set k a).get i = m.get i := by
  simp [get_set, h]

theorem get_modify (m : EnumMap κ α) (k i : κ) (f : α → α) :
    (m.modify k f).get i = if i = k then f (m.get k) else m.get i := get_set m k i _

@[simp] theorem get_mapWith (m : EnumMap κ α) (f : κ → α → β) (k : κ) :
    (m.mapWith f).get k = f k (m.get k) := by simp [mapWith]

end EnumMap

end ClassAtlas
