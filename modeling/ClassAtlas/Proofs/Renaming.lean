import ClassAtlas.Engine
import ClassAtlas.Proofs.Contents
import ClassAtlas.Proofs.StrictOrder
import Mathlib.Data.List.Nodup

/-! Two models with the same classes under different handles. The policy sees the classes and not their handles, so
what is put in order in one model comes in the same order in the other (`Renames.sortHandles_eq`). -/

namespace ClassAtlas

namespace ClassModel

/-- A model without classes that take members, under a policy that orders them strictly. -/
structure Settled (m : ClassModel) : Prop where
  wellFormed : WellFormed m
  strict : m.policy.Strict
  superTypes : ∀ h < m.size, ∀ r, r = .superClass ∨ r = .superInterface →
    Ascending m.compare ((m.classAt h).targets .outbound r)

/-- The classes of the second model are those of the first, under new handles. -/
structure Renames (φ : Handle → Handle) (m m' : ClassModel) : Prop where
  settled : Settled m
  settled' : Settled m'
  policy : m'.policy = m.policy
  inside : ∀ h < m.size, φ h < m'.size
  onto : ∀ i < m'.size, ∃ h < m.size, φ h = i
  content : ∀ h < m.size, (m'.classAt (φ h)).content = (m.classAt h).content
  targets : ∀ h < m.size, ∀ d r, ((m'.classAt (φ h)).targets d r).Perm (((m.classAt h).targets d r).map φ)
  ledger : ∀ h < m.size, ∀ d, ((m'.classAt (φ h)).ledger d).length = ((m.classAt h).ledger d).length

end ClassModel

namespace ClassNode

variable {n n' : ClassNode}

theorem element_congr (h : n'.content = n.content) : n'.element = n.element := congrArg Content.element h

theorem attributes_congr (h : n'.content = n.content) : n'.attributes = n.attributes :=
  congrArg Element.attributes (element_congr h)

theorem id_congr (h : n'.content = n.content) : n'.id = n.id := congrArg Attributes.id (attributes_congr h)

theorem isInterface_congr (h : n'.content = n.content) : n'.isInterface = n.isInterface :=
  congrArg (Attributes.has · .interface) (attributes_congr h)

theorem membersOf_congr (h : n'.content = n.content) : n'.membersOf = n.membersOf := by
  have hmembers : n'.members = n.members := congrArg Content.members h
  funext kind
  rw [membersOf, membersOf, hmembers]

theorem withParameters_congr (h : n'.content = n.content) : n'.withParameters = n.withParameters := by
  have hparameters : n'.typeParameters = n.typeParameters := congrArg Content.typeParameters h
  funext name
  rw [withParameters, withParameters, hparameters]

theorem shortName_congr (h : n'.content = n.content) : n'.shortName = n.shortName := by
  rw [shortName, shortName, withParameters_congr h, element_congr h]

theorem isProcessed_congr (h : n'.content = n.content) : n'.isProcessed = n.isProcessed := by
  have hlifecycle : n'.lifecycle = n.lifecycle := congrArg Content.lifecycle h
  rw [isProcessed, isProcessed, hlifecycle]

end ClassNode

theorem ClassRef.ofNode_congr {n n' : ClassNode} (h : n'.content = n.content) :
    ClassRef.ofNode n' = ClassRef.ofNode n := by
  simp only [ClassRef.ofNode, ClassNode.fullName, ClassNode.shortName_congr h, ClassNode.withParameters_congr h,
    ClassNode.id_congr h, ClassNode.element_congr h, ClassNode.isProcessed_congr h, ClassNode.attributes_congr h]

namespace ClassModel

namespace Renames

variable {φ : Handle → Handle} {m m' : ClassModel} {a b h : Handle} {hs hs' : List Handle}

theorem injective (hr : Renames φ m m') (ha : a < m.size) (hb : b < m.size) (hab : φ a = φ b) : a = b := by
  apply hr.settled.wellFormed.unique a b ha hb
  rw [← ClassNode.id_congr (hr.content a ha), ← ClassNode.id_congr (hr.content b hb), hab]

theorem compare_eq (hr : Renames φ m m') (ha : a < m.size) (hb : b < m.size) :
    m'.compare (φ a) (φ b) = m.compare a b := by
  rw [ClassModel.compare, ClassModel.compare, hr.policy, ClassNode.attributes_congr (hr.content a ha),
    ClassNode.attributes_congr (hr.content b hb)]

theorem ascending_map (hr : Renames φ m m') (hin : ∀ h ∈ hs, h < m.size) (hasc : Ascending m.compare hs) :
    Ascending m'.compare (hs.map φ) := by
  apply List.pairwise_map.2
  refine List.Pairwise.imp_of_mem (fun {a b} ha hb hab => ?_) hasc
  rwa [hr.compare_eq (hin a ha) (hin b hb)]

theorem lt_of_mem_map (hr : Renames φ m m') (hin : ∀ h ∈ hs, h < m.size) : ∀ i ∈ hs.map φ, i < m'.size := by
  intro i hi
  obtain ⟨h, hh, rfl⟩ := List.mem_map.1 hi
  exact hr.inside h (hin h hh)

/-- The same classes come in the same order. -/
theorem eq_map_of_ascending (hr : Renames φ m m') (hin : ∀ h ∈ hs, h < m.size) (hasc : Ascending m.compare hs)
    (hasc' : Ascending m'.compare hs') (hp : hs'.Perm (hs.map φ)) : hs' = hs.map φ := by
  apply eq_of_ascending hr.settled'.wellFormed hr.settled'.strict hasc' (hr.ascending_map hin hasc) hp
  intro i hi
  exact hr.lt_of_mem_map hin i (hp.mem_iff.1 hi)

theorem sortHandles_eq (hr : Renames φ m m') (hin : ∀ h ∈ hs, h < m.size) (hp : hs'.Perm (hs.map φ)) :
    m'.sortHandles hs' = (m.sortHandles hs).map φ := by
  have hperm : (m.sortHandles hs).Perm hs := sortBy_perm m.compare hs
  apply hr.eq_map_of_ascending
  · intro h hh
    exact hin h (hperm.mem_iff.1 hh)
  · exact ascending_sortHandles hr.settled.strict.trans hs
  · exact ascending_sortHandles hr.settled'.strict.trans hs'
  · exact ((sortBy_perm m'.compare hs').trans hp).trans (hperm.symm.map φ)

theorem lt_of_mem_targets (hr : Renames φ m m') (d : Direction) (r : Relation) :
    ∀ t ∈ (m.classAt h).targets d r, t < m.size :=
  fun t ht => (hr.settled.wellFormed.targets h d r t ht).1

theorem range_perm (hr : Renames φ m m') : (List.range m'.size).Perm ((List.range m.size).map φ) := by
  have hnodup : ((List.range m.size).map φ).Nodup := by
    refine List.Nodup.map_on (fun a ha b hb hab => ?_) List.nodup_range
    exact hr.injective (List.mem_range.1 ha) (List.mem_range.1 hb) hab
  rw [List.perm_ext_iff_of_nodup List.nodup_range hnodup]
  intro i
  rw [List.mem_range, List.mem_map]
  constructor
  · intro hi
    obtain ⟨h, hh, e⟩ := hr.onto i hi
    exact ⟨h, List.mem_range.2 hh, e⟩
  · rintro ⟨h, hh, rfl⟩
    exact hr.inside h (List.mem_range.1 hh)

theorem size_eq (hr : Renames φ m m') : m'.size = m.size := by
  simpa using hr.range_perm.length_eq

theorem handle?_eq (hr : Renames φ m m') (id : String) : m'.handle? id = (m.handle? id).map φ := by
  cases hid : m.handle? id with
  | some h =>
    obtain ⟨hh, rfl⟩ := (handle?_eq_some_iff hr.settled.wellFormed).1 hid
    exact (handle?_eq_some_iff hr.settled'.wellFormed).2 ⟨hr.inside h hh, ClassNode.id_congr (hr.content h hh)⟩
  | none =>
    rw [hr.settled.wellFormed.handle?_eq_none_iff] at hid
    refine hr.settled'.wellFormed.handle?_eq_none_iff.2 fun i hi => ?_
    obtain ⟨h, hh, rfl⟩ := hr.onto i hi
    rw [ClassNode.id_congr (hr.content h hh)]
    exact hid h hh

theorem targets_length (hr : Renames φ m m') (hh : h < m.size) (d : Direction) (r : Relation) :
    ((m'.classAt (φ h)).targets d r).length = ((m.classAt h).targets d r).length := by
  rw [(hr.targets h hh d r).length_eq, List.length_map]

theorem targets_isEmpty (hr : Renames φ m m') (hh : h < m.size) (d : Direction) (r : Relation) :
    ((m'.classAt (φ h)).targets d r).isEmpty = ((m.classAt h).targets d r).isEmpty := by
  rw [Bool.eq_iff_iff, List.isEmpty_iff_length_eq_zero, List.isEmpty_iff_length_eq_zero, hr.targets_length hh]

theorem sortTargets_eq (hr : Renames φ m m') (hh : h < m.size) (d : Direction) (r : Relation) :
    m'.sortHandles ((m'.classAt (φ h)).targets d r) = (m.sortHandles ((m.classAt h).targets d r)).map φ :=
  hr.sortHandles_eq (hr.lt_of_mem_targets d r) (hr.targets h hh d r)

theorem isRoot_eq (hr : Renames φ m m') (hh : h < m.size) : isRoot (m'.classAt (φ h)) = isRoot (m.classAt h) := by
  rw [isRoot, isRoot, hr.targets_isEmpty hh, hr.targets_isEmpty hh, ClassNode.isInterface_congr (hr.content h hh)]

theorem roots_eq (hr : Renames φ m m') : m'.roots = m.roots.map φ := by
  rw [roots, roots, handles_filter hr.settled.wellFormed.toClosed, handles_filter hr.settled'.wellFormed.toClosed]
  apply hr.sortHandles_eq
  · intro h hh
    exact List.mem_range.1 (List.mem_filter.1 hh).1
  · refine (hr.range_perm.filter _).trans (List.Perm.of_eq ?_)
    rw [List.filter_map]
    congr 1
    refine List.filter_congr fun h hh => ?_
    exact hr.isRoot_eq (List.mem_range.1 hh)

theorem handles_eq (hr : Renames φ m m') : m'.sortHandles m'.handles = (m.sortHandles m.handles).map φ := by
  rw [handles_eq_range hr.settled.wellFormed.toClosed, handles_eq_range hr.settled'.wellFormed.toClosed]
  apply hr.sortHandles_eq
  · intro h hh
    exact List.mem_range.1 hh
  · exact hr.range_perm

end Renames

end ClassModel

end ClassAtlas
