import ClassAtlas.Proofs.Ledgers
import ClassAtlas.Proofs.Reordering
import ClassAtlas.Proofs.SameAnswers
import ClassAtlas.Proofs.Stages

/-! The order of a snapshot does not show (`build_reordered`). It decides the handles, which placeholder comes first
and in which order cells fill, but every class is found by its id, what it is follows from its declaration or from any
mention of it, and what is handed out is put in an order that leaves no choice. -/

namespace ClassAtlas

open ClassModel

/-- What building a snapshot comes to. -/
structure Built (policy : Policy) (s : Snapshot) (m : ClassModel) : Prop where
  nodup : (s.classes.map (·.id)).Nodup
  calm : Calm (empty policy) m
  assembled : Assembled s m
  furnished : Furnished policy s m

namespace Built

variable {policy : Policy} {s : Snapshot} {m : ClassModel} {h t : Handle} {d : ClassDeclaration}

/-- A class is a declared or a mentioned one. -/
theorem declared_or_mentioned (hb : Built policy s m) {h : Nat} (hh : h < m.size) : (∃ d, s.classes[h]? = some d) ∨
    ∃ k r, s.mentions[k]? = some r ∧ h = s.classes.length + k := by
  have hsize := hb.furnished.size
  by_cases hlt : h < s.classes.length
  · exact Or.inl ⟨s.classes[h], List.getElem?_eq_getElem hlt⟩
  · have hk : h - s.classes.length < s.mentions.length := by omega
    exact Or.inr ⟨h - s.classes.length, s.mentions[h - s.classes.length], List.getElem?_eq_getElem hk, by omega⟩

theorem describes (hb : Built policy s m) (hh : h < m.size) :
    s.Describes policy (m.classAt h).id (m.classAt h).content := by
  rcases hb.declared_or_mentioned hh with ⟨d, hd⟩ | ⟨k, r, hr, rfl⟩
  · have hc := hb.furnished.declared h d hd
    refine Or.inl ⟨d, List.mem_of_getElem? hd, ?_, hc⟩
    exact (hb.assembled.id_eq hd).symm
  · have hc := hb.furnished.mentioned k r hr
    obtain ⟨hmem, hnew⟩ := mem_of_mem_firstMentions (List.mem_of_getElem? hr)
    have hid : (m.classAt (s.classes.length + k)).id = r.target :=
      congrArg (fun c : Content => c.element.id) hc
    exact Or.inr ⟨hid ▸ hnew, r, hmem, hid.symm, hc⟩

theorem has_iff (hb : Built policy s m) {id : String} : s.Has id ↔ ∃ h < m.size, (m.classAt h).id = id := by
  constructor
  · rintro (hid | hid)
    · obtain ⟨d, hd, rfl⟩ := List.mem_map.1 hid
      obtain ⟨h, hh⟩ := List.getElem?_of_mem hd
      exact ⟨h, (hb.assembled.declared h d hh).1, hb.assembled.id_eq hh⟩
    · obtain ⟨r, hr, rfl⟩ := List.mem_map.1 hid
      obtain ⟨d, hd, hr⟩ := List.mem_flatMap.1 hr
      obtain ⟨t, ht⟩ := hb.assembled.handle?_of_mem hd hr
      exact ⟨t, (handle?_eq_some_iff hb.assembled.wellFormed).1 ht⟩
  · rintro ⟨h, hh, rfl⟩
    rcases hb.describes hh with ⟨d, hd, hid, -⟩ | ⟨-, r, hr, hid, -⟩
    · exact Or.inl (List.mem_map.2 ⟨d, hd, hid⟩)
    · exact Or.inr (List.mem_map.2 ⟨r, hr, hid⟩)

theorem mem_outbound (hb : Built policy s m) (hh : h < m.size) (ht : t < m.size) (r : Relation) :
    t ∈ (m.classAt h).targets .outbound r ↔ s.Relates (m.classAt h).id r (m.classAt t).id := by
  have hne : h ≠ t ↔ (m.classAt t).id ≠ (m.classAt h).id := by
    refine not_congr ⟨fun e => by rw [e], fun e => ?_⟩
    exact hb.assembled.wellFormed.unique h t hh ht e.symm
  constructor
  · intro hmem
    obtain ⟨d, hd⟩ := hb.assembled.getElem?_of_mem_outbound hmem
    obtain ⟨-, hht, hnames⟩ := (hb.assembled.mem_outbound_declared hd).1 hmem
    exact ⟨hne.1 hht, d, List.mem_of_getElem? hd, (hb.assembled.id_eq hd).symm, hnames⟩
  · rintro ⟨hht, d, hd, hid, hnames⟩
    have hplace := hb.assembled.getElem?_of_id hd hh hid.symm
    exact (hb.assembled.mem_outbound_declared hplace).2 ⟨ht, hne.2 hht, hnames⟩

theorem settled (hb : Built policy s m) (hs : policy.Strict) : Settled m where
  wellFormed := hb.assembled.wellFormed
  strict := hb.furnished.policy_eq ▸ hs
  superTypes h hh r hr := by
    -- no class takes members any more, so its outbound super types are frozen
    have hlife : (m.classAt h).lifecycle = .relationsFinalized ∨ (m.classAt h).lifecycle = .membersFinalized := by
      rcases hb.declared_or_mentioned hh with ⟨d, hd⟩ | ⟨k, r, hr, rfl⟩
      · exact Or.inl (congrArg Content.lifecycle (hb.furnished.declared h d hd))
      · exact Or.inr (congrArg Content.lifecycle (hb.furnished.mentioned k r hr))
    apply hb.calm.moves.frozenAscending hs.trans
    rw [(hb.calm.moves.staged h).outbound]
    apply hlife.imp_right
    intro hfinal
    exact ⟨hfinal, hr.imp_right Or.inl⟩

section Renaming

/-- The handle of a class in another model, by its id. -/
def handleIn (m m' : ClassModel) (h : Handle) : Handle := (m'.handle? (m.classAt h).id).getD 0

variable {s' : Snapshot} {m' : ClassModel} {x : Handle} (hb : Built policy s m) (hb' : Built policy s' m')
  (hre : s.Reordered s')

include hb hb' hre

theorem handleIn_spec (hh : h < m.size) :
    handleIn m m' h < m'.size ∧ (m'.classAt (handleIn m m' h)).id = (m.classAt h).id := by
  have hhas : s'.Has (m.classAt h).id := (hre.has_iff _).2 (hb.has_iff.2 ⟨h, hh, rfl⟩)
  obtain ⟨i, hi⟩ := hb'.has_iff.1 hhas
  rw [handleIn, (handle?_eq_some_iff hb'.assembled.wellFormed).2 hi]
  exact hi

variable (hu : s.Unambiguous)

include hu

theorem handleIn_content (hh : h < m.size) :
    (m'.classAt (handleIn m m' h)).content = (m.classAt h).content := by
  obtain ⟨hi, hid⟩ := hb.handleIn_spec hb' hre hh
  have hdescribes' := hre.describes (hb'.describes hi)
  rw [hid] at hdescribes'
  exact hdescribes'.unique hb.nodup hu (hb.describes hh)

/-- Each cell holds the same classes in both models. -/
theorem mem_targets_handleIn (hh : h < m.size) (hx : x < m.size) (d : Direction) (r : Relation) :
    handleIn m m' x ∈ (m'.classAt (handleIn m m' h)).targets d r ↔ x ∈ (m.classAt h).targets d r := by
  have hout {a b : Handle} (ha : a < m.size) (hbm : b < m.size) (r : Relation) :
      handleIn m m' b ∈ (m'.classAt (handleIn m m' a)).targets .outbound r ↔
        b ∈ (m.classAt a).targets .outbound r := by
    obtain ⟨hi, hid⟩ := hb.handleIn_spec hb' hre ha
    obtain ⟨hj, hid'⟩ := hb.handleIn_spec hb' hre hbm
    rw [hb.mem_outbound ha hbm, hb'.mem_outbound hi hj, hid, hid', hre.relates_iff]
  cases d with
  | outbound => exact hout hh hx r
  | inbound =>
    rw [hb.assembled.mem_inbound, hb'.assembled.mem_inbound]
    apply exists_congr
    intro o
    have hinterface := ClassNode.isInterface_congr (hb.handleIn_content hb' hre hu hx)
    rw [hout hx hh, listing, listing, hinterface]

theorem targets_handleIn (honto : ∀ i < m'.size, ∃ h < m.size, handleIn m m' h = i) (hh : h < m.size) (d : Direction)
    (r : Relation) : ((m'.classAt (handleIn m m' h)).targets d r).Perm
      (((m.classAt h).targets d r).map (handleIn m m')) := by
  have hinj : ((((m.classAt h).targets d r)).map (handleIn m m')).Nodup := by
    refine List.Nodup.map_on (fun a ha b hbm hab => ?_) ((hb.calm.moves.booked h).nodup d r)
    have ha := (hb.assembled.wellFormed.targets h d r a ha).1
    have hbm := (hb.assembled.wellFormed.targets h d r b hbm).1
    apply hb.assembled.wellFormed.unique a b ha hbm
    rw [← (hb.handleIn_spec hb' hre ha).2, ← (hb.handleIn_spec hb' hre hbm).2, hab]
  rw [List.perm_ext_iff_of_nodup ((hb'.calm.moves.booked _).nodup d r) hinj]
  intro i
  rw [List.mem_map]
  constructor
  · intro hi
    obtain ⟨x, hx, rfl⟩ := honto i (hb'.assembled.wellFormed.targets _ d r i hi).1
    exact ⟨x, (hb.mem_targets_handleIn hb' hre hu hh hx d r).1 hi, rfl⟩
  · rintro ⟨x, hx, rfl⟩
    have hlt := (hb.assembled.wellFormed.targets h d r x hx).1
    exact (hb.mem_targets_handleIn hb' hre hu hh hlt d r).2 hx

theorem renames (hs : policy.Strict) : Renames (handleIn m m') m m' := by
  have honto : ∀ i < m'.size, ∃ h < m.size, handleIn m m' h = i := by
    intro i hi
    have hhas : s.Has (m'.classAt i).id := (hre.has_iff _).1 (hb'.has_iff.2 ⟨i, hi, rfl⟩)
    obtain ⟨h, hh, hid⟩ := hb.has_iff.1 hhas
    obtain ⟨hj, hid'⟩ := hb.handleIn_spec hb' hre hh
    exact ⟨h, hh, hb'.assembled.wellFormed.unique _ i hj hi (hid'.trans hid)⟩
  have htargets {h : Handle} (hh : h < m.size) (d : Direction) (r : Relation) :=
    hb.targets_handleIn hb' hre hu honto hh d r
  refine ⟨hb.settled hs, hb'.settled hs, hb'.furnished.policy_eq.trans hb.furnished.policy_eq.symm, ?_, honto, ?_, ?_,
    ?_⟩
  · intro h hh
    exact (hb.handleIn_spec hb' hre hh).1
  · intro h hh
    exact hb.handleIn_content hb' hre hu hh
  · intro h hh d r
    exact htargets hh d r
  · intro h hh d
    -- a ledger knows as many classes as the checkable cells hold
    rw [(hb.calm.booked_perm h d).length_eq, (hb'.calm.booked_perm _ d).length_eq]
    simp only [ClassNode.checkedTargets, List.length_append, (htargets hh d _).length_eq, List.length_map]

end Renaming

end Built

namespace Snapshot

variable {policy : Policy} {s s' : Snapshot} {m m' : ClassModel} {stats stats' : BuildStats}

theorem built_of_build (h : s.build policy = .ok (m, stats)) : Built policy s m := by
  by_cases hnodup : (s.classes.map (·.id)).Nodup
  · obtain ⟨p, hp, hcalm, hm⟩ := Build.assemble_ok policy hnodup
    obtain ⟨p', hp', h⟩ := bind_eq_ok h
    cases hp.symm.trans hp'
    split at h
    · cases h
    · cases h
      exact ⟨hnodup, hcalm, hm, Build.furnished_of_assemble hnodup hp⟩
  · obtain ⟨id, r, he⟩ := build_of_duplicate policy hnodup
    rw [he] at h
    cases h

theorem build_ok_iff (policy : Policy) (s : Snapshot) : (∃ built, s.build policy = .ok built) ↔
    (s.classes.map (·.id)).Nodup ∧ ∀ id, ¬ Relation.TransGen s.Extends id id := by
  by_cases hnodup : (s.classes.map (·.id)).Nodup
  · rcases build_of_nodup policy hnodup with ⟨hr, hno⟩ | ⟨⟨c, hc⟩, hcycle⟩
    · simp [hr, hnodup, hno]
    · simp [hc, hcycle, hnodup]
  · obtain ⟨id, r, he⟩ := build_of_duplicate policy hnodup
    simp [he, hnodup]

/-- Under the named policies a snapshot and one in another order are accepted or refused alike, and the engines of
their models give the same answers. -/
theorem build_reordered (hpolicy : policy = .byKind ∨ policy = .byName) (hre : s.Reordered s') (hu : s.Unambiguous) :
    ((∃ built, s.build policy = .ok built) ↔ ∃ built, s'.build policy = .ok built) ∧
    ∀ m stats m' stats', s.build policy = .ok (m, stats) → s'.build policy = .ok (m', stats') →
      ∀ path path', Engine.SameAnswers ⟨path, m⟩ ⟨path', m'⟩ := by
  constructor
  · rw [build_ok_iff, build_ok_iff, hre.ids_perm.nodup_iff, hre.extends_eq]
  · intro m stats m' stats' hm hm' path path'
    have hs : policy.Strict := by
      rcases hpolicy with rfl | rfl
      exacts [Policy.byKind_strict, Policy.byName_strict]
    exact ((built_of_build hm).renames (built_of_build hm') hre hu hs).sameAnswers path path'

/-- The classes of `tangled` with `I` before `A`, which names its interfaces the other way round. -/
def retangled : Snapshot where
  classes :=
    [{ id := "I", kind := .interface, interfaces := ["J"], relations := [⟨.innerClass, "A"⟩, ⟨.dependency, "A"⟩] },
     { id := "A", superClass := some "B", interfaces := ["A", "I", "I"],
       relations := [⟨.association, "B"⟩, ⟨.dependency, "B"⟩, ⟨.superInterface, "J"⟩,
        ⟨.throwsDependency, "E"⟩, ⟨.innerClass, "A"⟩, ⟨.superClass, "C"⟩] },
     { id := "B" }]

theorem build_reordered_tangled : ∃ m stats m' stats', tangled.build .byKind = .ok (m, stats) ∧
    retangled.build .byKind = .ok (m', stats') ∧ Engine.SameAnswers ⟨"a.json", m⟩ ⟨"b.json", m'⟩ := by
  have hre : tangled.Reordered retangled := by
    refine ⟨_, List.Perm.swap _ _ _, .cons ⟨.refl _, rfl⟩ (.cons ⟨?_, rfl⟩ (.cons ⟨.refl _, rfl⟩ .nil))⟩
    decide
  have hu : tangled.Unambiguous := by
    unfold Unambiguous
    decide +kernel
  have hok : (tangled.build .byKind).isOk = true := by decide +kernel
  have hall := build_reordered (Or.inl rfl) hre hu
  obtain ⟨built, hb⟩ := exists_of_isOk hok
  obtain ⟨built', hb'⟩ := hall.1.1 ⟨built, hb⟩
  exact ⟨built.1, built.2, built'.1, built'.2, hb, hb', hall.2 _ _ _ _ hb hb' "a.json" "b.json"⟩

end Snapshot

end ClassAtlas
