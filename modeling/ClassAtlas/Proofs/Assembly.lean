import ClassAtlas.Proofs.Wiring

/-! A snapshot without duplicate ids is always assembled (`assemble_ok`), and its model shows what the
declarations say; a duplicate id is reported (`assemble_duplicate`). -/

namespace ClassAtlas

open ClassModel

/-- The references of the declaration at a place; a class without a declaration has none. -/
def Snapshot.referencesOf (s : Snapshot) (h : Handle) : List RelationDeclaration :=
  (s.classes[h]?).elim [] ClassDeclaration.references

theorem Snapshot.referencesOf_some {s : Snapshot} {h : Handle} {d : ClassDeclaration}
    (hd : s.classes[h]? = some d) : s.referencesOf h = d.references := by
  rw [referencesOf, hd]
  rfl

theorem Snapshot.referencesOf_none {s : Snapshot} {h : Handle} (hd : s.classes[h]? = none) :
    s.referencesOf h = [] := by
  rw [referencesOf, hd]
  rfl

/-- The model shows the classes and the references of a snapshot. -/
structure Assembled (s : Snapshot) (m : ClassModel) : Prop where
  wellFormed : WellFormed m
  records : Records m (Reading m s.referencesOf)
  declared : ∀ h d, s.classes[h]? = some d → h < m.size ∧ (m.classAt h).element = d.toElement
  resolved : ∀ h, ∀ r ∈ s.referencesOf h, m.handle? r.target ≠ none

namespace Build

variable {m m' : ClassModel} {refs : Handle → List RelationDeclaration} {ds : List ClassDeclaration}

theorem declare_ok (hw : Wired m refs) (hfresh : ∀ d ∈ ds, m.handle? d.id = none)
    (hnodup : (ds.map (·.id)).Nodup) :
    ∃ m', declare m ds = .ok (m', ds.zipIdx m.size) ∧ Calm m m' ∧ Wired m' refs ∧
      m'.size = m.size + ds.length ∧
      ∀ k d, ds[k]? = some d → (m'.classAt (m.size + k)).element = d.toElement := by
  induction ds generalizing m with
  | nil => exact ⟨m, rfl, Relation.ReflTransGen.refl, hw, rfl, by simp⟩
  | cons d ds ih =>
    have hd : m.handle? d.toElement.id = none := hfresh d (List.mem_cons_self ..)
    rw [List.map_cons, List.nodup_cons] at hnodup
    have hfresh' : ∀ k ∈ ds, (m.extend d.toElement d.typeParameters).handle? k.id = none := by
      intro k hk
      have hne : k.id ≠ d.toElement.id := fun e => hnodup.1 (List.mem_map.2 ⟨k, hk, e⟩)
      rw [handle?_extend, if_neg hne]
      exact hfresh k (List.mem_cons_of_mem d hk)
    obtain ⟨m', he, hcalm, hw', hsize, hclasses⟩ :=
      ih (hw.extend d.typeParameters hd) hfresh' hnodup.2
    have hmove : Move m (m.extend d.toElement d.typeParameters) none := Move.extend _ _ hd
    refine ⟨m', ?_, Relation.ReflTransGen.head hmove hcalm, hw', ?_, fun k d' hk => ?_⟩
    · rw [size_extend] at he
      simp only [declare, addClass, hd, he, bind, Except.bind, List.zipIdx_cons]
      rfl
    · rw [hsize, size_extend, List.length_cons]
      omega
    · cases k with
      | zero =>
        obtain rfl : d = d' := by simpa using hk
        rw [Nat.add_zero, hcalm.element.2 m.size (by simp), classAt_extend_size]
      | succ k =>
        have := hclasses k d' (by simpa using hk)
        rwa [size_extend, show m.size + 1 + k = m.size + (k + 1) by omega] at this

/-- The first class whose id is taken is reported. -/
theorem declare_duplicate (h : ¬ ((∀ d ∈ ds, m.handle? d.id = none) ∧ (ds.map (·.id)).Nodup)) :
    ∃ id r, declare m ds = .error (.duplicateClass id r) := by
  induction ds generalizing m with
  | nil => simp at h
  | cons d ds ih =>
    cases hd : m.handle? d.toElement.id with
    | some i => exact ⟨d.id, .alreadyRegistered d.toElement.id, by simp [declare, addClass, hd]⟩
    | none =>
      have hrest : ¬ ((∀ k ∈ ds, (m.extend d.toElement d.typeParameters).handle? k.id = none) ∧
          (ds.map (·.id)).Nodup) := by
        rintro ⟨hfresh, hnodup⟩
        have hne (k : ClassDeclaration) (hk : k ∈ ds) : k.id ≠ d.toElement.id := by
          intro e
          have := hfresh k hk
          rw [handle?_extend, if_pos e] at this
          cases this
        refine h ⟨fun k hk => ?_, ?_⟩
        · rcases List.mem_cons.1 hk with rfl | hk
          · exact hd
          · have := hfresh k hk
            rwa [handle?_extend, if_neg (hne k hk)] at this
        · rw [List.map_cons, List.nodup_cons]
          refine ⟨fun hmem => ?_, hnodup⟩
          obtain ⟨k, hk, hid⟩ := List.mem_map.1 hmem
          exact hne k hk hid
      obtain ⟨id, r, he⟩ := ih hrest
      exact ⟨id, r, by simp [declare, addClass, hd, he, bind, Except.bind]⟩

theorem foldlM_mapError (finish : ClassModel → Handle → Except Refusal ClassModel) (m : ClassModel) (hs : List Handle) :
    hs.foldlM (fun m h => (finish m h).mapError BuildFailure.refused) m =
      match m.finishEach finish hs with
      | (m', none) => .ok m'
      | (_, some r) => .error (.refused r) := by
  induction hs generalizing m with
  | nil => rfl
  | cons i hs ih =>
    rw [finishEach, List.foldlM_cons]
    cases finish m i with
    | error r => rfl
    | ok m1 => exact ih m1

theorem foldlM_finishRelations {hs : List Handle} : hs.foldlM finishRelations m = .ok m' ↔
    m.finishEach ClassModel.finishRelations hs = (m', none) := by
  have hfold : hs.foldlM finishRelations m = _ := foldlM_mapError ClassModel.finishRelations m hs
  rw [hfold]
  rcases m.finishEach ClassModel.finishRelations hs with ⟨m1, _ | r⟩ <;> simp

theorem finishMembers_eq (m : ClassModel) : finishMembers m =
    (m.handlesIn .building).foldlM (fun m h => (m.finishMembers h).mapError .refused) m := by
  rw [foldlM_mapError, finishMembers, finishAllMembers, finishAllIn]
  rcases m.finishEach ClassModel.finishMembers (m.handlesIn .building) with ⟨m', _ | r⟩ <;> rfl

/-- Members are finished everywhere and relations at the declared classes, without a refusal. -/
theorem finish_ok (hw : Wired m refs) {n : Nat} (hn : n ≤ m.size) :
    ∃ m1 m2, finishMembers m = .ok m1 ∧ (List.range n).foldlM finishRelations m1 = .ok m2 ∧
      Calm m m2 ∧ Agree m m2 ∧ m2.size = m.size := by
  have hall := hw.handlesIn_building
  obtain ⟨m1, he, hp1, hfin⟩ := finishAllMembers_spec hw.wellFormed
  have hcalm1 := finishAllIn_calm ClassModel.finishMembers (fun _ _ _ => Move.finishMembers) m .building
  have hagree1 := agree_finishEach ClassModel.finishMembers (fun _ _ _ => agree_finishMembers) m (m.handlesIn .building)
  rw [← finishAllIn_fst] at hagree1
  change Calm m m.finishAllMembers.1 at hcalm1
  change Agree m m.finishAllMembers.1 at hagree1
  rw [he] at hcalm1 hagree1
  have hready : ∀ h ∈ List.range n, h < m1.size ∧ (m1.classAt h).lifecycle = .membersFinalized := by
    intro h hh
    have hm : h < m.size := Nat.lt_of_lt_of_le (List.mem_range.1 hh) hn
    rw [hfin.size, hfin.lifecycle, hall, if_pos (List.mem_range.2 hm)]
    exact ⟨hm, rfl⟩
  obtain ⟨m2, he2, -, hfin2⟩ := finishEach_relations hp1 List.nodup_range hready
  have hcalm2 := finishEach_calm ClassModel.finishRelations (fun _ _ _ => Move.finishRelations) m1 (List.range n)
  have hagree2 := agree_finishEach ClassModel.finishRelations (fun _ _ _ => agree_finishRelations) m1 (List.range n)
  rw [he2] at hcalm2 hagree2
  exact ⟨m1, m2, by simp only [finishMembers, he], foldlM_finishRelations.2 he2, hcalm1.trans hcalm2,
    hagree1.trans hagree2, hfin2.size.trans hfin.size⟩

variable {s : Snapshot}

/-- A snapshot whose ids are distinct is assembled. -/
theorem assemble_ok (policy : Policy) (hnodup : (s.classes.map (·.id)).Nodup) :
    ∃ p, assemble policy s = .ok p ∧ Calm (empty policy) p.model ∧ Assembled s p.model := by
  have hfresh : ∀ d ∈ s.classes, (empty policy).handle? d.id = none := fun _ _ => rfl
  obtain ⟨m, he, hcalm, hw, hsize, hclasses⟩ := declare_ok (wired_empty policy) hfresh hnodup
  simp only [show (empty policy).size = 0 from rfl, Nat.zero_add] at he hsize hclasses
  have hinside : ∀ d ∈ s.classes.zipIdx, d.2 < m.size := fun d hd => hsize ▸ List.snd_lt_of_mem_zipIdx hd
  obtain ⟨p, hp, hcalm', hw'⟩ :=
    wireAll_ok (p := ⟨m, { declared := s.classes.zipIdx.length }⟩) hw hinside
  have hn : s.classes.length ≤ p.model.size := by
    rw [← hsize]
    exact hcalm'.element.1
  obtain ⟨m1, m2, hm1, hm2, hcalm2, hagree, hsize2⟩ := finish_ok hw' hn
  have hhandles := map_snd_zipIdx s.classes
  have hrefs : (fun h => [] ++ allotted ClassDeclaration.references s.classes.zipIdx h) = s.referencesOf := by
    funext h
    have := allotted_zipIdx ClassDeclaration.references s.classes 0 h
    rwa [Nat.zero_add] at this
  rw [hrefs] at hw'
  have hcalmAll : Calm (empty policy) m2 := (hcalm.trans hcalm').trans hcalm2
  refine ⟨⟨m2, p.stats⟩, ?_, hcalmAll, hcalmAll.moves.wellFormed (wellFormed_empty policy), ?_, ?_, ?_⟩
  · simp only [assemble, he, bind, Except.bind, hp, hm1, hhandles, hm2]
    rfl
  · rw [reading_congr hsize2 (hagree.element_all hsize2)]
    exact hw'.records.agree hagree
  · intro h d hd
    have hh : h < m.size := by
      rw [hsize]
      exact (List.getElem?_eq_some_iff.1 hd).1
    refine ⟨hsize2 ▸ Nat.lt_of_lt_of_le hh hcalm'.element.1, ?_⟩
    rw [hagree.element_all hsize2, hcalm'.element.2 h hh, ← hclasses h d hd]
  · exact fun h r hr => hcalm2.handle?_ne_none hw'.wellFormed (hw'.resolved h r hr)

theorem assemble_duplicate (policy : Policy) (h : ¬ (s.classes.map (·.id)).Nodup) :
    ∃ id r, assemble policy s = .error (.duplicateClass id r) := by
  have hdup : ¬ ((∀ d ∈ s.classes, (empty policy).handle? d.id = none) ∧ (s.classes.map (·.id)).Nodup) :=
    fun hno => h hno.2
  obtain ⟨id, r, he⟩ := declare_duplicate hdup
  exact ⟨id, r, by simp [assemble, he, bind, Except.bind]⟩

end Build

end ClassAtlas
