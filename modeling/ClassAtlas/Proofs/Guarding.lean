import ClassAtlas.Guarded.Build
import ClassAtlas.Proofs.Arena
import ClassAtlas.Proofs.Assembly

/-! A build never looks up a class that is not there, brings no class anything too late, and finishes no class too
many: with each of these guarded it gives what it gives without the guards (`build_eq`). Each part of the build keeps a
model under construction, so that the next part finds the classes under its handles. -/

namespace ClassAtlas

open ClassModel

namespace Guarded

/-! What a model under construction does not report as a violation it does with guards too. -/

variable {m m' : ClassModel} {h s t : Handle}

theorem addMember_eq {x : Element} (hh : h < m.size) (he : m.addMember h x = (m', none)) :
    addMember m h x = some m' := by
  rw [addMember, classAt_eq hh]
  rw [ClassModel.addMember] at he
  cases hn : (m.classAt h).addMember x with
  | ok node =>
    rw [hn] at he
    cases he
    simp [hn]
  | error v =>
    rw [hn] at he
    cases he

theorem record_eq {d : Direction} {r : Relation} (hs : s < m.size) (ht : t < m.size)
    (he : m.record s d r t = (m', none)) : record m s d r t = some m' := by
  rw [record, classAt_eq hs, classAt_eq ht]
  rw [ClassModel.record] at he
  rcases hn : (m.classAt s).record d r t with ⟨node, _ | v⟩
  · rw [hn] at he
    cases he
    simp [hn]
  · rw [hn] at he
    cases he

theorem recordBoth_eq {outbound inbound : Relation} (hs : s < m.size) (ht : t < m.size)
    (he : m.recordBoth s outbound t inbound = (m', none)) : recordBoth m s outbound t inbound = some m' := by
  have hsize := size_record (m := m) s .outbound outbound t
  rw [ClassModel.recordBoth] at he
  rcases hout : m.record s .outbound outbound t with ⟨m1, _ | v⟩
  · rw [hout] at he hsize
    rw [recordBoth, record_eq hs ht hout]
    exact record_eq (hsize ▸ ht) (hsize ▸ hs) he
  · rw [hout] at he
    cases he

theorem addRelation_eq {r : Relation} (hs : s < m.size) (ht : t < m.size)
    (he : m.addRelation s r t = (m', none)) : addRelation m s r t = some m' := by
  rw [ClassModel.addRelation] at he
  unfold addRelation
  split <;> rename_i hst
  · rw [if_pos hst] at he
    cases he
    rfl
  · rw [if_neg hst] at he
    exact recordBoth_eq hs ht he

theorem addSuperInterface_eq (hs : s < m.size) (ht : t < m.size) (he : m.addSuperInterface s t = (m', none)) :
    addSuperInterface m s t = some m' := by
  rw [ClassModel.addSuperInterface] at he
  rw [addSuperInterface, classAt_eq hs]
  split <;> rename_i hst
  · rw [if_pos hst] at he
    cases he
    rfl
  · rw [if_neg hst] at he
    exact recordBoth_eq hs ht he

theorem connect_eq {r : Relation} (hs : s < m.size) (ht : t < m.size) (he : m.connect s r t = (m', none)) :
    connect m s r t = some m' := by
  rw [ClassModel.connect] at he
  unfold connect
  split <;> rename_i hr
  · rw [if_pos hr] at he
    exact addSuperInterface_eq hs ht he
  · rw [if_neg hr] at he
    exact addRelation_eq hs ht he

variable {α β : Type}

/-- A stage comes to what `e` is, and a result of it satisfies `P`. -/
structure Gives (x : Stage α) (e : Except BuildFailure α) (P : α → Prop) : Prop where
  run : x.run = some e
  result : ∀ a, e = .ok a → P a

namespace Gives

variable {x : Stage α} {e : Except BuildFailure α} {P : α → Prop} {Q : β → Prop}

theorem pure {a : α} (h : P a) : Gives (Pure.pure a) (.ok a) P where
  run := rfl
  result := by
    rintro a' ⟨⟩
    exact h

/-- A result that is known. -/
theorem ofExcept {a : α} (he : e = .ok a) : Gives (MonadExcept.ofExcept e) e (· = a) := by
  subst he
  exact pure rfl

/-- A look-up that succeeds. -/
theorem lift {o : Option α} {a : α} (ho : o = some a) : Gives (liftM o) (.ok a) (· = a) := by
  subst ho
  exact pure rfl

theorem bind {f : α → Stage β} {g : α → Except BuildFailure β} (hx : Gives x e P)
    (hf : ∀ a, P a → Gives (f a) (g a) Q) : Gives (x >>= f) (e >>= g) Q := by
  cases e with
  | error r => exact ⟨by rw [ExceptT.run_bind, hx.run]; rfl, nofun⟩
  | ok a =>
    have hfa := hf a (hx.result a rfl)
    exact ⟨by rw [ExceptT.run_bind, hx.run]; exact hfa.run, hfa.result⟩

theorem foldlM {f : β → α → Stage β} {g : β → α → Except BuildFailure β} {as : List α}
    (hf : ∀ b, Q b → ∀ a ∈ as, Gives (f b a) (g b a) Q) {b : β} (hb : Q b) :
    Gives (as.foldlM f b) (as.foldlM g b) Q := by
  induction as generalizing b with
  | nil => exact .pure hb
  | cons a as ih =>
    rw [List.foldlM_cons, List.foldlM_cons]
    exact (hf b hb a (List.mem_cons_self ..)).bind fun b' hb' =>
      ih (fun b hb x hx => hf b hb x (List.mem_cons_of_mem a hx)) hb'

end Gives

/-- A model under construction with at least `n` classes. -/
def UnderWay (n : Nat) (p : Build.Progress) : Prop := (∃ refs, Wired p.model refs) ∧ n ≤ p.model.size

variable {n : Nat} {p : Build.Progress}

theorem withMember_gives (hp : UnderWay n p) (hs : s < n) (x : Element) :
    Gives (withMember s p x) (Build.addMember s p x) (UnderWay n) := by
  obtain ⟨⟨refs, hw⟩, hn⟩ := hp
  have hs' := Nat.lt_of_lt_of_le hs hn
  obtain ⟨m1, he, -, hsize, hw1⟩ := hw.member hs' x
  rw [withMember, addMember_eq hs' he, Build.addMember, he]
  exact .pure ⟨⟨refs, hw1⟩, hsize ▸ hn⟩

theorem withReference_gives (hp : UnderWay n p) (hs : s < n) (r : RelationDeclaration) :
    Gives (withReference s p r) (Build.addReference s p r) (UnderWay n) := by
  obtain ⟨⟨refs, hw⟩, hn⟩ := hp
  obtain ⟨p1, t, hp1, hcalm, hw1, ht⟩ := Build.resolve_ok hw r
  have hn1 := Nat.le_trans hn hcalm.element.1
  have hs1 := Nat.lt_of_lt_of_le hs hn1
  have ht1 := ((handle?_eq_some_iff hw1.wellFormed).1 ht).1
  obtain ⟨m2, he, -, hsize, hw2⟩ := hw1.connect hs1 ht
  unfold withReference Build.addReference
  refine (Gives.ofExcept hp1).bind ?_
  rintro _ rfl
  dsimp only
  rw [connect_eq hs1 ht1 he, he]
  exact .pure ⟨⟨_, hw2⟩, hsize ▸ hn1⟩

theorem withClass_gives (hp : UnderWay n p) {declared : ClassDeclaration × Handle} (hs : declared.2 < n) :
    Gives (withClass p declared) (Build.wire p declared) (UnderWay n) := by
  obtain ⟨d, s⟩ := declared
  have hmembers := Gives.foldlM (fun p (hp : UnderWay n p) x (_ : x ∈ d.members.map d.memberElement) =>
    withMember_gives hp hs x) hp
  exact hmembers.bind fun p hp => Gives.foldlM (fun p hp r _ => withReference_gives hp hs r) hp

/-- Finishing classes of the model one after the other is finishing them with guards. -/
theorem finishEach_gives {guarded : ClassModel → Handle → Option (Except Refusal ClassModel)}
    {finish : ClassModel → Handle → Except Refusal ClassModel}
    (there : ∀ {m h}, WellFormed m → h < m.size → guarded m h = some (finish m h))
    (hmove : ∀ {m h m'}, finish m h = .ok m' → Move m m' none) (hm : WellFormed m) (hn : n ≤ m.size)
    {hs : List Handle} (hlt : ∀ h ∈ hs, h < n) :
    Gives (finishEach m guarded hs) (hs.foldlM (fun m h => (finish m h).mapError .refused) m)
      fun m => WellFormed m ∧ n ≤ m.size := by
  refine Gives.foldlM (fun m hm h hh => ⟨?_, fun m' hfin => ?_⟩) ⟨hm, hn⟩
  · rw [there hm.1 (Nat.lt_of_lt_of_le (hlt h hh) hm.2)]
    rfl
  · cases he : finish m h with
    | error r => rw [he] at hfin; cases hfin
    | ok m1 =>
      rw [he] at hfin
      cases hfin
      exact ⟨hm.1.move (hmove he), Nat.le_trans hm.2 (Calm.single (hmove he)).element.1⟩

/-- The class that a search reports is there to be named. -/
theorem validateHierarchy_gives (hm : WellFormed m) :
    Gives (validateHierarchy m) (m.validateHierarchy.mapError .cyclic) fun _ => True := by
  have hsearch : Gives (validateHierarchy m) (.ok m.superClassCycle? >>= fun found =>
      found.elim (.ok ()) fun c => .error (.cyclic ⟨(m.classAt c).id⟩)) fun _ => True := by
    refine (Gives.lift (superClassCycle_eq hm)).bind ?_
    rintro _ rfl
    cases hc : m.superClassCycle? with
    | none => exact .pure trivial
    | some c =>
      refine Gives.bind (g := fun n => .error (.cyclic ⟨n.id⟩)) (.lift (classAt_eq (superClassCycle?_lt hm hc))) ?_
      exact fun _ _ => ⟨rfl, nofun⟩
  convert hsearch using 1
  unfold ClassModel.validateHierarchy
  cases m.superClassCycle? <;> rfl

theorem assemble_gives (policy : Policy) (s : Snapshot) :
    Gives (assemble policy s) (Build.assemble policy s) fun p => WellFormed p.model := by
  by_cases hnodup : (s.classes.map (·.id)).Nodup
  · obtain ⟨m, he, -, hw, hsize, -⟩ := Build.declare_ok (wired_empty policy) (fun _ _ => rfl) hnodup
    simp only [show (empty policy).size = 0 from rfl, Nat.zero_add] at he hsize
    have hinside : ∀ d ∈ s.classes.zipIdx, d.2 < m.size := fun d hd => hsize ▸ List.snd_lt_of_mem_zipIdx hd
    refine (Gives.ofExcept he).bind ?_
    rintro _ rfl
    refine (Gives.foldlM (fun _ hp d hd => withClass_gives hp (hinside d hd)) ⟨⟨_, hw⟩, le_rfl⟩).bind fun p hp => ?_
    obtain ⟨refs, hw'⟩ := hp.1
    rw [Build.finishMembers_eq]
    have hbuilding : ∀ h ∈ p.model.handlesIn .building, h < p.model.size :=
      fun h hh => ((mem_handlesIn hw'.wellFormed).1 hh).1
    refine (finishEach_gives (finishMembers_eq ·) Move.finishMembers hw'.wellFormed le_rfl hbuilding).bind ?_
    rintro m1 ⟨hm1, hsize1⟩
    have hdeclared : ∀ h ∈ s.classes.zipIdx.map (·.2), h < m.size := List.forall_mem_map.2 hinside
    exact (finishEach_gives (finishRelations_eq ·) Move.finishRelations hm1 (Nat.le_trans hp.2 hsize1) hdeclared).bind
      fun m2 hm2 => .pure hm2.1
  · obtain ⟨id, r, he⟩ := Build.declare_duplicate (m := empty policy) (fun hno => hnodup hno.2)
    unfold assemble Build.assemble
    rw [he]
    exact ⟨rfl, nofun⟩

theorem build_eq (policy : Policy) (s : Snapshot) : build policy s = some (s.build policy) := by
  have hbuild : Gives _ _ fun _ => True := (assemble_gives policy s).bind fun p hp =>
    (validateHierarchy_gives hp).bind fun _ _ => .pure (a := (p.model, p.stats)) trivial
  refine hbuild.run.trans (congrArg some ?_)
  unfold Snapshot.build
  congr 1
  funext p
  cases p.model.validateHierarchy <;> rfl

end Guarded

end ClassAtlas
