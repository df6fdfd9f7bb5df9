import ClassAtlas.Proofs.Links
import ClassAtlas.Proofs.WellFormed
import ClassAtlas.Snapshot.Basic
import Mathlib.Logic.Function.Basic

/-! The links that lists of references stand for, one list for each class. Of the checkable references of a
class to one target only the first counts, so a list that grows by a reference stands for the links of before and
at most one more (`reading_update`). -/

namespace ClassAtlas

/-- A reference of a list counts unless it is checkable and an earlier checkable one has its target. -/
def Stands (rs : List RelationDeclaration) (r : RelationDeclaration) : Prop :=
  r ∈ rs ∧ (r.relation.isCheckable = true →
    rs.find? (fun k => k.relation.isCheckable && k.target = r.target) = some r)

/-- There is a checkable reference to the target. -/
def Checked (rs : List RelationDeclaration) (target : String) : Prop :=
  ∃ k ∈ rs, k.relation.isCheckable = true ∧ k.target = target

variable {rs : List RelationDeclaration} {r k : RelationDeclaration}

theorem not_checked_iff {target : String} : ¬ Checked rs target ↔
    rs.find? (fun k => k.relation.isCheckable && k.target = target) = none := by
  rw [List.find?_eq_none]
  simp [Checked]

theorem stands_append : Stands (rs ++ [r]) k ↔
    Stands rs k ∨ (k = r ∧ ¬ (r.relation.isCheckable = true ∧ Checked rs r.target)) := by
  unfold Stands
  rw [List.find?_append, List.mem_append, List.mem_singleton]
  by_cases hk : k.relation.isCheckable = true
  · simp only [hk, true_imp_iff]
    constructor
    · rintro ⟨-, h⟩
      rcases Option.or_eq_some_iff.1 h with h | ⟨hnone, h⟩
      · exact Or.inl ⟨List.mem_of_find?_eq_some h, h⟩
      · obtain rfl := List.mem_singleton.1 (List.mem_of_find?_eq_some h)
        exact Or.inr ⟨rfl, fun hc => not_checked_iff.2 hnone hc.2⟩
    · rintro (⟨hmem, h⟩ | ⟨rfl, hno⟩)
      · exact ⟨Or.inl hmem, by rw [h]; rfl⟩
      · have hnone := not_checked_iff.1 fun hc => hno ⟨hk, hc⟩
        refine ⟨Or.inr rfl, ?_⟩
        rw [hnone]
        simp [hk]
  · simp only [hk, Bool.false_eq_true, false_imp_iff, and_true]
    refine or_congr_right ⟨fun h => ⟨h, fun hc => hk (h ▸ hc.1)⟩, And.left⟩

theorem Stands.checked (h : Stands rs r) (hr : r.relation.isCheckable = true) : Checked rs r.target :=
  ⟨r, h.1, hr, rfl⟩

/-- The first checkable reference to a target counts. -/
theorem Checked.stands {target : String} (h : Checked rs target) :
    ∃ o : Relation, o.isCheckable = true ∧ Stands rs ⟨o, target⟩ := by
  cases hf : rs.find? fun k => k.relation.isCheckable && k.target = target with
  | none => exact absurd h (not_checked_iff.2 hf)
  | some k =>
    have hk := List.find?_some hf
    simp only [Bool.and_eq_true, decide_eq_true_eq] at hk
    obtain ⟨o, t⟩ := k
    obtain ⟨ho, rfl⟩ := hk
    exact ⟨o, ho, List.mem_of_find?_eq_some hf, fun _ => hf⟩

namespace ClassModel

/-- The relation that a reference is listed under by its target. -/
def listing (m : ClassModel) (source : Handle) (r : Relation) : Relation :=
  if r = .superInterface ∧ (m.classAt source).isInterface = false then .superClass else r

/-- The link is what a reference of its source stands for. -/
def Reading (m : ClassModel) (refs : Handle → List RelationDeclaration) (l : Link) : Prop :=
  l.target < m.size ∧ l.source ≠ l.target ∧ l.inbound = m.listing l.source l.outbound ∧
    Stands (refs l.source) ⟨l.outbound, (m.classAt l.target).id⟩

variable {m m' : ClassModel} {refs : Handle → List RelationDeclaration} {s t : Handle}

theorem listing_listed (m : ClassModel) (s : Handle) (o : Relation) (t : Handle) :
    Link.Listed m ⟨s, o, t, m.listing s o⟩ := by
  unfold Link.Listed listing
  split
  · rename_i h
    exact Or.inr ⟨h.1, rfl, h.2⟩
  · exact Or.inl rfl

theorem connect_eq (m : ClassModel) (s : Handle) (o : Relation) (t : Handle) :
    m.connect s o t = if s = t then (m, none) else m.link ⟨s, o, t, m.listing s o⟩ := by
  unfold connect addSuperInterface addRelation ClassModel.link listing
  by_cases ho : o = .superInterface
  · subst ho
    cases hs : (m.classAt s).isInterface <;> simp
  · simp [ho]

/-- An id that has a class keeps it. -/
theorem Calm.handle? (h : Calm m m') (hm : WellFormed m) {id : String} (hid : m.handle? id = some t) :
    m'.handle? id = some t := by
  obtain ⟨ht, rfl⟩ := (handle?_eq_some_iff hm).1 hid
  obtain ⟨hsize, helement⟩ := h.element
  rw [handle?_eq_some_iff (h.moves.wellFormed hm)]
  exact ⟨Nat.lt_of_lt_of_le ht hsize, congrArg Element.id (helement t ht)⟩

theorem Calm.handle?_ne_none (h : Calm m m') (hm : WellFormed m) {id : String}
    (hid : m.handle? id ≠ none) : m'.handle? id ≠ none := by
  obtain ⟨t, ht⟩ := Option.ne_none_iff_exists'.1 hid
  rw [h.handle? hm ht]
  simp

/-- The reading looks at the elements of the classes only. -/
theorem reading_congr (hsize : m'.size = m.size)
    (helement : ∀ x, (m'.classAt x).element = (m.classAt x).element) : Reading m' refs = Reading m refs := by
  have hid : ∀ x, (m'.classAt x).id = (m.classAt x).id := fun x => congrArg Element.id (helement x)
  have hint : ∀ x, (m'.classAt x).isInterface = (m.classAt x).isInterface := fun x =>
    congrArg (fun e : Element => e.attributes.has .interface) (helement x)
  funext l
  simp only [Reading, listing, hsize, hid, hint]

/-- Where every reference leads to a class of the model, a new class changes nothing. -/
theorem reading_extend {e : Element} {ps : List TypeRef} (fresh : m.handle? e.id = none)
    (hresolved : ∀ s, ∀ r ∈ refs s, m.handle? r.target ≠ none)
    (houtside : ∀ s, m.size ≤ s → refs s = []) : Reading (m.extend e ps) refs = Reading m refs := by
  funext l
  obtain ⟨s, o, t, i⟩ := l
  have hsource : ∀ k, Stands (refs s) k → s < m.size := by
    intro k hk
    by_contra hs
    have := hk.1
    rw [houtside s (Nat.le_of_not_lt hs)] at this
    simp at this
  have hlisting : s < m.size → (m.extend e ps).listing s o = m.listing s o := by
    intro hs
    simp only [listing, classAt_extend e ps hs]
  refine propext ⟨?_, ?_⟩
  · rintro ⟨ht, hst, hi, hstands⟩
    rw [size_extend] at ht
    have htm : t ≠ m.size := by
      rintro rfl
      rw [classAt_extend_size] at hstands
      exact hresolved s _ hstands.1 fresh
    have ht : t < m.size := Nat.lt_of_le_of_ne (Nat.le_of_lt_succ ht) htm
    rw [classAt_extend e ps ht] at hstands
    exact ⟨ht, hst, hi.trans (hlisting (hsource _ hstands)), hstands⟩
  · rintro ⟨ht, hst, hi, hstands⟩
    refine ⟨by rw [size_extend]; exact Nat.lt_succ_of_lt ht, hst,
      hi.trans (hlisting (hsource _ hstands)).symm, ?_⟩
    rw [classAt_extend e ps ht]
    exact hstands

theorem reading_update_ne {l : Link} (h : l.source ≠ s ∨ (m.classAt l.target).id ≠ r.target) :
    Reading m (Function.update refs s (refs s ++ [r])) l ↔ Reading m refs l := by
  unfold Reading
  by_cases hs : l.source = s
  · subst hs
    have hid : (m.classAt l.target).id ≠ r.target := h.resolve_left (absurd rfl)
    rw [Function.update_self, stands_append]
    refine and_congr_right fun _ => and_congr_right fun _ => and_congr_right fun _ => ?_
    refine or_iff_left ?_
    rintro ⟨rfl, -⟩
    exact hid rfl
  · rw [Function.update_of_ne hs]

/-- One more reference of a class to itself does not count. -/
theorem reading_update_self (hm : WellFormed m) (hs : s < m.size) (hid : (m.classAt s).id = r.target) :
    Reading m (Function.update refs s (refs s ++ [r])) = Reading m refs := by
  funext l
  have hne : l.target < m.size → l.source ≠ l.target →
      l.source ≠ s ∨ (m.classAt l.target).id ≠ r.target := by
    intro ht hst
    by_cases hsource : l.source = s
    · right
      intro htarget
      exact hst (hsource.trans (hm.unique s l.target hs ht (hid.trans htarget.symm)))
    · exact Or.inl hsource
  exact propext ⟨fun h => (reading_update_ne (hne h.1 h.2.1)).1 h,
    fun h => (reading_update_ne (hne h.1 h.2.1)).2 h⟩

/-- One more reference to another class makes one link, unless it is shadowed. -/
theorem reading_update (hm : WellFormed m) (ht : t < m.size) (hst : s ≠ t)
    (hid : (m.classAt t).id = r.target) :
    Reading m (Function.update refs s (refs s ++ [r])) =
      Enter (Reading m refs) ⟨s, r.relation, t, m.listing s r.relation⟩ := by
  have hshadowed : Shadowed (Reading m refs) ⟨s, r.relation, t, m.listing s r.relation⟩ ↔
      r.relation.isCheckable = true ∧ Checked (refs s) r.target := by
    refine and_congr_right fun _ => ⟨?_, fun hc => ?_⟩
    · rintro ⟨o, i, ⟨-, -, -, hstands⟩, ho⟩
      exact hid ▸ hstands.checked ho
    · obtain ⟨o, ho, hstands⟩ := hc.stands
      exact ⟨o, m.listing s o, ⟨ht, hst, rfl, hid ▸ hstands⟩, ho⟩
  funext l
  obtain ⟨s', o, t', i⟩ := l
  refine propext ?_
  unfold Enter
  rw [hshadowed]
  by_cases hne : s' ≠ s ∨ (m.classAt t').id ≠ r.target
  · rw [reading_update_ne hne]
    refine (or_iff_left ?_).symm
    rintro ⟨e, -⟩
    obtain ⟨rfl, -, rfl, -⟩ := Link.mk.inj e
    exact hne.elim (absurd rfl) (absurd hid)
  · obtain ⟨rfl, htarget⟩ : s' = s ∧ (m.classAt t').id = r.target := by
      constructor <;> by_contra h <;> exact hne (by tauto)
    unfold Reading
    dsimp only
    rw [Function.update_self, stands_append, htarget]
    constructor
    · rintro ⟨ht', hst', hi, hstands | ⟨e, hno⟩⟩
      · exact Or.inl ⟨ht', hst', hi, hstands⟩
      · obtain rfl : o = r.relation := congrArg RelationDeclaration.relation e
        obtain rfl := hm.unique t' t ht' ht (htarget.trans hid.symm)
        exact Or.inr ⟨by rw [hi], hno⟩
    · rintro (⟨ht', hst', hi, hstands⟩ | ⟨e, hno⟩)
      · exact ⟨ht', hst', hi, Or.inl hstands⟩
      · obtain ⟨-, rfl, rfl, rfl⟩ := Link.mk.inj e
        exact ⟨ht, hst, rfl, Or.inr ⟨rfl, hno⟩⟩

end ClassModel

end ClassAtlas
