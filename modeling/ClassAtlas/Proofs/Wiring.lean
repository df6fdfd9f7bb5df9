import ClassAtlas.Build
import ClassAtlas.Proofs.Finishing
import ClassAtlas.Proofs.Reading

/-! While a snapshot is read no class is finished, so no member comes late and no cell is frozen, and an id
without a class gets one: each part of the wiring is carried out (`wire_ok`). Afterwards the links of the model are
those its references stand for. -/

namespace ClassAtlas

namespace ClassModel

/-- Every class takes members and relations. -/
structure Unfinished (m : ClassModel) : Prop where
  lifecycle : ∀ h, (m.classAt h).lifecycle = .building
  cells : ∀ h d r, ((m.classAt h).cell d r).frozen = false

/-- A model under construction, and the references its links stand for. -/
structure Wired (m : ClassModel) (refs : Handle → List RelationDeclaration) : Prop where
  wellFormed : WellFormed m
  unfinished : Unfinished m
  records : Records m (Reading m refs)
  resolved : ∀ s, ∀ r ∈ refs s, m.handle? r.target ≠ none
  outside : ∀ s, m.size ≤ s → refs s = []

variable {m m' : ClassModel} {h s t : Handle} {refs : Handle → List RelationDeclaration}
  {r : RelationDeclaration}

theorem Unfinished.modify (hm : Unfinished m) (hh : h < m.size) {f : ClassNode → ClassNode}
    (hlife : (f (m.classAt h)).lifecycle = (m.classAt h).lifecycle)
    (hcell : ∀ d r, ((f (m.classAt h)).cell d r).frozen = ((m.classAt h).cell d r).frozen) :
    Unfinished (m.modify h f) := by
  refine ⟨fun i => ?_, fun i d r => ?_⟩ <;> rw [classAt_modify hh] <;> split
  · rw [hlife, hm.lifecycle]
  · exact hm.lifecycle i
  · rw [hcell, hm.cells]
  · exact hm.cells i d r

theorem unfinished_empty (policy : Policy) : Unfinished (empty policy) := by
  refine ⟨fun h => ?_, fun h d r => ?_⟩ <;> rw [classAt_of_size_le (Nat.zero_le h)]
  simp [ClassNode.cell]

theorem Unfinished.extend (hm : Unfinished m) (e : Element) (ps : List TypeRef) :
    Unfinished (m.extend e ps) := by
  have hcases : ∀ i, (m.extend e ps).classAt i = m.classAt i ∨
      (m.extend e ps).classAt i = { handle := i, element := e, typeParameters := ps } := by
    intro i
    rcases Nat.lt_trichotomy i m.size with hi | rfl | hi
    · exact Or.inl (classAt_extend e ps hi)
    · exact Or.inr (classAt_extend_size e ps)
    · left
      rw [classAt_of_size_le (Nat.le_of_lt hi), classAt_of_size_le (by rw [size_extend]; exact hi)]
  refine ⟨fun i => ?_, fun i d r => ?_⟩
  · rcases hcases i with e | e <;> rw [e]
    exact hm.lifecycle i
  · rcases hcases i with e | e <;> rw [e]
    · exact hm.cells i d r
    · simp [ClassNode.cell]

theorem Unfinished.record (hm : Unfinished m) (hs : s < m.size) (d : Direction) (r : Relation)
    (t : Handle) : (m.record s d r t).2 = none ∧ Unfinished (m.record s d r t).1 :=
  ⟨ClassNode.record_eq_none (hm.cells s d r),
    hm.modify hs ClassNode.record_lifecycle fun _ _ => ClassNode.record_frozen⟩

theorem Unfinished.link (hm : Unfinished m) {l : Link} (hl : l.Fits m) :
    ∃ m', m.link l = (m', none) ∧ Unfinished m' := by
  obtain ⟨hv, hm1⟩ := hm.record hl.source_lt .outbound l.outbound l.target
  have htarget := target_lt_record hl
  obtain ⟨hv', hm2⟩ := hm1.record htarget .inbound l.inbound l.source
  refine ⟨_, ?_, hm2⟩
  rcases link_cases m l with ⟨hno, -⟩ | ⟨-, e⟩
  · exact absurd hv hno
  · rw [e]
    exact Prod.ext rfl hv'

theorem wired_empty (policy : Policy) : Wired (empty policy) fun _ => [] where
  wellFormed := wellFormed_empty policy
  unfinished := unfinished_empty policy
  records := by
    have hnone : Reading (empty policy) (fun _ => []) = fun _ => False := by
      funext l
      exact propext ⟨fun h => absurd h.2.2.2.1 List.not_mem_nil, False.elim⟩
    rw [hnone]
    exact records_empty policy
  resolved _ r hr := absurd hr List.not_mem_nil
  outside _ _ := rfl

theorem Wired.handlesIn_building (hw : Wired m refs) : m.handlesIn .building = List.range m.size := by
  rw [handlesIn_eq hw.wellFormed, List.filter_eq_self]
  intro h _
  simp [hw.unfinished.lifecycle]

theorem Wired.extend (hw : Wired m refs) {e : Element} (ps : List TypeRef)
    (fresh : m.handle? e.id = none) : Wired (m.extend e ps) refs where
  wellFormed := hw.wellFormed.move (Move.extend e ps fresh)
  unfinished := hw.unfinished.extend e ps
  records := by
    rw [reading_extend fresh hw.resolved hw.outside]
    exact hw.records.agree (agree_extend m e ps)
  resolved s r hr :=
    (Calm.single (Move.extend e ps fresh)).handle?_ne_none hw.wellFormed (hw.resolved s r hr)
  outside s hs := hw.outside s (Nat.le_of_succ_le (by rwa [size_extend] at hs))

/-- A class that is under construction takes any member. -/
theorem Wired.member (hw : Wired m refs) (hs : s < m.size) (x : Element) :
    ∃ m', m.addMember s x = (m', none) ∧ Move m m' none ∧ m'.size = m.size ∧ Wired m' refs := by
  rcases addMember_cases m s x with ⟨-, e⟩ | ⟨hb, -⟩
  · have hmove : Move m _ none := Move.member hs e
    have helement : ∀ x', ((m.modify s fun _ => (m.classAt s).append x).classAt x').element =
        (m.classAt x').element := by
      intro x'
      rw [classAt_modify hs]
      split
      · rename_i e; rw [e]; rfl
      · rfl
    refine ⟨_, e, hmove, size_modify _, hw.wellFormed.move hmove,
      hw.unfinished.modify hs rfl fun _ _ => rfl, ?_, fun s' r hr => ?_, fun s' hs' => ?_⟩
    · rw [reading_congr (size_modify _) helement]
      exact hw.records.agree (agree_modify hs rfl (fun _ _ _ => Iff.rfl) fun _ _ => Iff.rfl)
    · exact (Calm.single hmove).handle?_ne_none hw.wellFormed (hw.resolved s' r hr)
    · exact hw.outside s' (by rwa [size_modify] at hs')
  · exact absurd (hw.unfinished.lifecycle s) hb

/-- A class that is under construction takes any reference to a class of the model. -/
theorem Wired.connect (hw : Wired m refs) (hs : s < m.size) (ht : m.handle? r.target = some t) :
    ∃ m', m.connect s r.relation t = (m', none) ∧ Calm m m' ∧ m'.size = m.size ∧
      Wired m' (Function.update refs s (refs s ++ [r])) := by
  obtain ⟨htm, hid⟩ := (handle?_eq_some_iff hw.wellFormed).1 ht
  have houtside : ∀ s', m.size ≤ s' → Function.update refs s (refs s ++ [r]) s' = [] := by
    intro s' hs'
    have hne : s' ≠ s := fun e => absurd hs (Nat.not_lt.2 (e ▸ hs'))
    rw [Function.update_of_ne hne]
    exact hw.outside s' hs'
  have hresolved : ∀ s', ∀ r' ∈ Function.update refs s (refs s ++ [r]) s', m.handle? r'.target ≠ none := by
    intro s' r' hr'
    by_cases hs' : s' = s
    · subst hs'
      rw [Function.update_self, List.mem_append, List.mem_singleton] at hr'
      rcases hr' with hr' | rfl
      · exact hw.resolved s' r' hr'
      · rw [ht]; simp
    · rw [Function.update_of_ne hs'] at hr'
      exact hw.resolved s' r' hr'
  rw [connect_eq]
  split
  · rename_i hst
    subst hst
    refine ⟨m, rfl, Relation.ReflTransGen.refl, rfl, hw.wellFormed, hw.unfinished, ?_, hresolved, houtside⟩
    rw [reading_update_self hw.wellFormed hs hid]
    exact hw.records
  · rename_i hst
    have hl : Link.Fits m ⟨s, r.relation, t, m.listing s r.relation⟩ :=
      ⟨hs, htm, hst, listing_listed m s r.relation t⟩
    obtain ⟨m', hlink, hopen⟩ := hw.unfinished.link hl
    obtain ⟨hsize, helement⟩ := element_link hl hlink
    have hmove : Move m m' none := Move.link hl hlink
    refine ⟨m', hlink, Calm.single hmove, hsize, hw.wellFormed.move hmove, hopen, ?_,
      fun s' r' hr' => (Calm.single hmove).handle?_ne_none hw.wellFormed (hresolved s' r' hr'),
      fun s' hs' => houtside s' (hsize ▸ hs')⟩
    rw [reading_congr hsize helement, reading_update hw.wellFormed htm hst hid]
    exact hw.records.link hl hlink

end ClassModel

namespace Build

open ClassModel

variable {p : Progress} {refs : Handle → List RelationDeclaration} {s : Handle}

theorem addMembers_ok (hw : Wired p.model refs) (hs : s < p.model.size) (xs : List Element) :
    ∃ p', xs.foldlM (addMember s) p = .ok p' ∧ Calm p.model p'.model ∧ Wired p'.model refs := by
  induction xs generalizing p with
  | nil => exact ⟨p, rfl, Relation.ReflTransGen.refl, hw⟩
  | cons x xs ih =>
    obtain ⟨m1, he, hmove, hsize, hw1⟩ := hw.member hs x
    obtain ⟨p', hp', hcalm, hw'⟩ :=
      ih (p := ⟨m1, { p.stats with members := p.stats.members + 1 }⟩) hw1 (hsize ▸ hs)
    refine ⟨p', ?_, Relation.ReflTransGen.head hmove hcalm, hw'⟩
    rw [List.foldlM_cons, addMember, he]
    exact hp'

theorem resolve_ok (hw : Wired p.model refs) (r : RelationDeclaration) :
    ∃ p' t, resolve p r = .ok (p', t) ∧ Calm p.model p'.model ∧ Wired p'.model refs ∧
      p'.model.handle? r.target = some t := by
  unfold resolve
  cases ht : p.model.handle? r.target with
  | some t => exact ⟨p, t, rfl, Relation.ReflTransGen.refl, hw, ht⟩
  | none =>
    have hfresh : p.model.handle? (placeholder r.target r.relation).id = none := ht
    have hw' := hw.extend [] hfresh
    refine ⟨⟨p.model.extend (placeholder r.target r.relation) [],
      { p.stats with placeholders := p.stats.placeholders + 1 }⟩, p.model.size, ?_,
      Calm.single (Move.extend _ [] hfresh), hw', ?_⟩
    · simp only [addClass, hfresh]
    · rw [handle?_eq_some_iff hw'.wellFormed, size_extend, classAt_extend_size]
      exact ⟨Nat.lt_succ_self _, rfl⟩

theorem addReference_ok (hw : Wired p.model refs) (hs : s < p.model.size) (r : RelationDeclaration) :
    ∃ p', addReference s p r = .ok p' ∧ Calm p.model p'.model ∧
      Wired p'.model (Function.update refs s (refs s ++ [r])) := by
  obtain ⟨p1, t, hp1, hcalm, hw1, ht⟩ := resolve_ok hw r
  obtain ⟨m2, hm2, hcalm', -, hw2⟩ := hw1.connect (Nat.lt_of_lt_of_le hs hcalm.element.1) ht
  refine ⟨⟨m2, { p1.stats with relations := p1.stats.relations + 1 }⟩, ?_, hcalm.trans hcalm', hw2⟩
  unfold addReference
  rw [hp1]
  simp [bind, Except.bind, hm2]

theorem addReferences_ok (hw : Wired p.model refs) (hs : s < p.model.size)
    (rs : List RelationDeclaration) :
    ∃ p', rs.foldlM (addReference s) p = .ok p' ∧ Calm p.model p'.model ∧
      Wired p'.model (Function.update refs s (refs s ++ rs)) := by
  induction rs generalizing p refs with
  | nil =>
    refine ⟨p, rfl, Relation.ReflTransGen.refl, ?_⟩
    rwa [List.append_nil, Function.update_eq_self]
  | cons r rs ih =>
    obtain ⟨p1, hp1, hcalm, hw1⟩ := addReference_ok hw hs r
    obtain ⟨p', hp', hcalm', hw'⟩ := ih hw1 (Nat.lt_of_lt_of_le hs hcalm.element.1)
    refine ⟨p', ?_, hcalm.trans hcalm', ?_⟩
    · rw [List.foldlM_cons, hp1]
      exact hp'
    · rw [Function.update_idem, Function.update_self, List.append_assoc] at hw'
      exact hw'

theorem wire_ok (hw : Wired p.model refs) (hs : s < p.model.size) (d : ClassDeclaration) :
    ∃ p', wire p (d, s) = .ok p' ∧ Calm p.model p'.model ∧
      Wired p'.model (Function.update refs s (refs s ++ d.references)) := by
  obtain ⟨p1, hp1, hcalm, hw1⟩ := addMembers_ok hw hs (d.members.map d.memberElement)
  obtain ⟨p', hp', hcalm', hw'⟩ := addReferences_ok hw1 (Nat.lt_of_lt_of_le hs hcalm.element.1) d.references
  refine ⟨p', ?_, hcalm.trans hcalm', hw'⟩
  simp only [wire, hp1]
  exact hp'

/-- A part of the declarations of a list that have the handle. -/
def allotted {α : Type} (part : ClassDeclaration → List α) (declared : List (ClassDeclaration × Handle))
    (h : Handle) : List α :=
  declared.flatMap fun (d, s) => if s = h then part d else []

/-- What the first declaration of a list has goes to its class, the rest to the others. -/
theorem allotted_cons {α : Type} (part : ClassDeclaration → List α) (given : Handle → List α) (d : ClassDeclaration)
    (s : Handle) (declared : List (ClassDeclaration × Handle)) :
    (fun h => given h ++ allotted part ((d, s) :: declared) h) =
      fun h => Function.update given s (given s ++ part d) h ++ allotted part declared h := by
  funext h
  by_cases hsh : s = h
  · subst hsh
    simp [allotted]
  · simp [allotted, hsh, Function.update_of_ne (Ne.symm hsh)]

theorem wireAll_ok {declared : List (ClassDeclaration × Handle)} (hw : Wired p.model refs)
    (hs : ∀ d ∈ declared, d.2 < p.model.size) :
    ∃ p', declared.foldlM wire p = .ok p' ∧ Calm p.model p'.model ∧
      Wired p'.model fun h => refs h ++ allotted ClassDeclaration.references declared h := by
  induction declared generalizing p refs with
  | nil => exact ⟨p, rfl, Relation.ReflTransGen.refl, by simpa [allotted] using hw⟩
  | cons d declared ih =>
    obtain ⟨d, s⟩ := d
    obtain ⟨p1, hp1, hcalm, hw1⟩ := wire_ok hw (hs (d, s) (List.mem_cons_self ..)) d
    obtain ⟨p', hp', hcalm', hw'⟩ := ih hw1 fun k hk =>
      Nat.lt_of_lt_of_le (hs k (List.mem_cons_of_mem _ hk)) hcalm.element.1
    refine ⟨p', ?_, hcalm.trans hcalm', ?_⟩
    · rw [List.foldlM_cons, hp1]
      exact hp'
    · rw [allotted_cons]
      exact hw'

theorem map_snd_zipIdx (ds : List ClassDeclaration) : ds.zipIdx.map (·.2) = List.range ds.length := by
  rw [List.range_eq_range', ← List.zipIdx_map_snd]

theorem allotted_zipIdx {α : Type} (part : ClassDeclaration → List α) (ds : List ClassDeclaration) (n h : Nat) :
    allotted part (ds.zipIdx n) (n + h) = (ds[h]?).elim [] part := by
  induction ds generalizing n h with
  | nil => rfl
  | cons d ds ih =>
    rw [List.zipIdx_cons]
    cases h with
    | zero =>
      have hrest : allotted part (ds.zipIdx (n + 1)) n = [] := by
        simp only [allotted, List.flatMap_eq_nil_iff]
        rintro ⟨d', i⟩ hd'
        have := (List.mem_zipIdx_iff_le_and_getElem?_sub.1 hd').1
        rw [if_neg]
        rintro rfl
        exact absurd this (Nat.not_succ_le_self i)
      change (if n = n then part d else []) ++ allotted part (ds.zipIdx (n + 1)) n = part d
      rw [hrest, if_pos rfl, List.append_nil]
    | succ h =>
      have := ih (n + 1) h
      rw [show n + 1 + h = n + (h + 1) by omega] at this
      change (if n = n + (h + 1) then part d else []) ++ _ = _
      rw [if_neg (by omega), List.nil_append, List.getElem?_cons_succ]
      exact this

end Build

end ClassAtlas
