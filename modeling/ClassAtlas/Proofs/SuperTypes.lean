import ClassAtlas.Proofs.HierarchyCycle
import ClassAtlas.Proofs.Links
import ClassAtlas.Proofs.Stages

/-! A class stands below exactly the classes that it lists as its super class or realizes, in every state of every
run that adds super interfaces as such, violations included (`run_realized`): the cells of super types never freeze
inbound, so the second half of such a link is always made. Sub-interfaces are interfaces (`run_subInterfaces`). -/

namespace ClassAtlas

/-- An edge of the super interface relation, added like one of any other relation. -/
def Operation.isPlainSuperInterface : Operation → Bool
  | addRelation s r t => r = .superInterface ∧ s ≠ t
  | _ => false

/-- A super interface is listed inbound as `addSuperInterface` does. -/
def Link.Proper (m : ClassModel) (l : Link) : Prop :=
  l.outbound = .superInterface →
    l.inbound = if (m.classAt l.source).isInterface then .superInterface else .superClass

namespace ClassModel

open ClassNode

variable {m m' : ClassModel} {l : Link} {s t h : Handle}

/-- Being listed below a class goes by the super types that a class lists itself. -/
def Realized (m : ClassModel) : Prop :=
  ∀ s t, s ∈ (m.classAt t).targets .inbound .superClass ↔
    t ∈ (m.classAt s).targets .outbound .superClass ∨
      ((m.classAt s).isInterface = false ∧ t ∈ (m.classAt s).targets .outbound .superInterface)

/-- What a step can do to the relations of a model: nothing, or it makes a link, which is proper unless a super
interface was added like another relation. -/
theorem step_agree_or_link (m : ClassModel) (op : Operation) :
    Agree m (m.step op).1 ∨
      ∃ l, l.Fits m ∧ (m.step op).1 = (m.link l).1 ∧ (op.isPlainSuperInterface = false → l.Proper m) := by
  have hmembers : ∀ m h m', finishMembers m h = .ok m' → Agree m m' := fun _ _ _ => agree_finishMembers
  have hrelations : ∀ m h m', finishRelations m h = .ok m' → Agree m m' := fun _ _ _ => agree_finishRelations
  unfold step
  cases hfind : op.handles.find? fun h => m.size ≤ h with
  | some h => exact Or.inl (Agree.refl m)
  | none =>
    have inside : ∀ h ∈ op.handles, h < m.size := by
      intro h hh
      simpa using List.find?_eq_none.1 hfind h hh
    cases op with
    | addClass e ps =>
      left
      simp only [perform, addClass]
      cases m.handle? e.id with
      | some _ => exact Agree.refl m
      | none => exact agree_extend m e ps
    | addMember h x =>
      left
      simp only [perform]
      rcases addMember_cases m h x with ⟨-, e⟩ | ⟨-, e⟩ <;> rw [e]
      · exact agree_modify (inside h (by simp [Operation.handles])) rfl (fun _ _ _ => Iff.rfl) fun _ _ => Iff.rfl
      · exact Agree.refl m
    | addRelation s r t =>
      simp only [perform, addRelation]
      split
      · exact Or.inl (Agree.refl m)
      · rename_i hst
        refine Or.inr ⟨⟨s, r, t, r⟩, ⟨inside s (by simp [Operation.handles]), inside t (by simp [Operation.handles]),
          hst, listed_of_eq rfl⟩, rfl, fun hop hr => ?_⟩
        exact absurd ⟨hr, hst⟩ (of_decide_eq_false hop)
    | addSuperInterface s t =>
      simp only [perform, addSuperInterface]
      split
      · exact Or.inl (Agree.refl m)
      · rename_i hst
        exact Or.inr ⟨⟨s, .superInterface, t, if (m.classAt s).isInterface then .superInterface else .superClass⟩,
          ⟨inside s (by simp [Operation.handles]), inside t (by simp [Operation.handles]), hst,
            addSuperInterface_listed m s t⟩, rfl, fun _ _ => rfl⟩
    | finishMembers h =>
      left
      simp only [perform]
      cases hfin : m.finishMembers h with
      | error _ => exact Agree.refl m
      | ok m1 => exact hmembers m h m1 hfin
    | finishRelations h =>
      left
      simp only [perform]
      cases hfin : m.finishRelations h with
      | error _ => exact Agree.refl m
      | ok m1 => exact hrelations m h m1 hfin
    | finishAllMembers =>
      have hall := agree_finishEach _ hmembers m (m.handlesIn .building)
      rw [← finishAllIn_fst] at hall
      simp only [perform, finishAllMembers]
      rcases he : m.finishAllIn .building ClassModel.finishMembers with ⟨m1, r | n⟩ <;>
        rw [he] at hall <;> exact Or.inl hall
    | finishAllRelations =>
      have hall := agree_finishEach _ hrelations m (m.handlesIn .membersFinalized)
      rw [← finishAllIn_fst] at hall
      simp only [perform, finishAllRelations]
      rcases he : m.finishAllIn .membersFinalized ClassModel.finishRelations with ⟨m1, r | n⟩ <;>
        rw [he] at hall <;> exact Or.inl hall

theorem realized_empty (policy : Policy) : Realized (empty policy) := by
  simp [Realized]

theorem Realized.agree (hr : Realized m) (ha : Agree m m') : Realized m' := by
  intro s t
  rw [ha.targets, ha.targets, ha.targets, hr s t]
  refine or_congr_right (and_congr_left fun ht => ?_)
  have hs : s < m.size := lt_of_mem_targets ht
  rw [isInterface, isInterface, attributes, attributes, ha.element s hs]

theorem isInterface_record {owner : Handle} {d : Direction} {r : Relation} (ho : owner < m.size) (x : Handle) :
    ((m.record owner d r t).1.classAt x).isInterface = (m.classAt x).isInterface := by
  rw [isInterface, isInterface, attributes, attributes, element_record ho]

theorem isInterface_link (hl : l.Fits m) (x : Handle) :
    ((m.link l).1.classAt x).isInterface = (m.classAt x).isInterface := by
  rcases link_cases m l with ⟨-, e⟩ | ⟨-, e⟩ <;> rw [e]
  · exact isInterface_record hl.source_lt x
  · rw [isInterface_record (target_lt_record hl), isInterface_record hl.source_lt]

/-- What a link of super types comes to: nothing if the source is past taking it, else both halves are made. -/
theorem link_superTypes (hl : l.Fits m) (hstaged : ∀ h, (m.classAt h).Staged)
    (hin : l.inbound = .superClass ∨ l.inbound = .superInterface) :
    (∀ x d r, ((m.link l).1.classAt x).targets d r = (m.classAt x).targets d r) ∨ (m.link l).2 = none := by
  rcases link_cases m l with ⟨hv, e⟩ | ⟨hv, e⟩ <;> rw [e]
  · left
    intro x d r
    exact targets_of_violation hl.source_lt hv
  · right
    have htarget : (m.record l.source .outbound l.outbound l.target).1.classAt l.target = m.classAt l.target := by
      rw [classAt_record hl.source_lt, if_neg (Ne.symm hl.apart)]
    have hopen : ((m.classAt l.target).cell .inbound l.inbound).frozen = false := by
      rw [← Bool.not_eq_true, (hstaged l.target).inbound]
      rintro ⟨hinner, -⟩
      rcases hin with hin | hin <;> rw [hin] at hinner <;> cases hinner
    rw [record_eq, htarget]
    exact record_eq_none hopen

/-- A link under another relation leaves the super types alone. -/
theorem targets_link_ne (hl : l.Fits m) {r : Relation} (hout : r ≠ l.outbound) (hin : r ≠ l.inbound) (x : Handle)
    (d : Direction) : ((m.link l).1.classAt x).targets d r = (m.classAt x).targets d r := by
  have hsource : ((m.record l.source .outbound l.outbound l.target).1.classAt x).targets d r =
      (m.classAt x).targets d r := targets_of_record_ne hl.source_lt fun e => hout e.2
  rcases link_cases m l with ⟨-, e⟩ | ⟨-, e⟩ <;> rw [e]
  · exact hsource
  · rw [targets_of_record_ne (target_lt_record hl) (fun e => hin e.2), hsource]

/-- After a link under super types both classes list each other. -/
theorem mem_targets_link (hl : l.Fits m) (hsuper : l.outbound.isCheckable = false)
    (hnone : (m.link l).2 = none) {x y : Handle} {d : Direction} {r : Relation} :
    y ∈ ((m.link l).1.classAt x).targets d r ↔ y ∈ (m.classAt x).targets d r ∨
      (x = l.source ∧ d = .outbound ∧ r = l.outbound ∧ y = l.target) ∨
      (x = l.target ∧ d = .inbound ∧ r = l.inbound ∧ y = l.source) := by
  obtain ⟨hv1, hlink⟩ := link_eq_none (Prod.ext rfl hnone : m.link l = ((m.link l).1, none))
  have htarget := target_lt_record hl
  have hfree (n : ClassNode) (d : Direction) (t : Handle) :
      ¬ n.Suppresses d l.outbound t ∧ ¬ n.Suppresses d l.inbound t := by
    simp [Suppresses, hl.listed.checkable, hsuper]
  rw [← congrArg Prod.fst hlink, mem_targets_record htarget (congrArg Prod.snd hlink),
    mem_targets_record hl.source_lt hv1, or_assoc]
  simp only [hfree, not_false_eq_true, true_and]

theorem Realized.link (hr : Realized m) (hl : l.Fits m) (hproper : l.Proper m)
    (hstaged : ∀ h, (m.classAt h).Staged) : Realized (m.link l).1 := by
  -- the link is one of the three that bear on super types, or it leaves them alone
  have hkinds : (l.outbound = .superClass ∧ l.inbound = .superClass) ∨
      (l.outbound = .superInterface ∧
        l.inbound = if (m.classAt l.source).isInterface then .superInterface else .superClass) ∨
      (∀ r, r = .superClass ∨ r = .superInterface → r ≠ l.outbound ∧ r ≠ l.inbound) := by
    by_cases hi : l.outbound = .superInterface
    · exact Or.inr (Or.inl ⟨hi, hproper hi⟩)
    · have hsame : l.inbound = l.outbound := hl.listed.resolve_right fun h => hi h.1
      by_cases hc : l.outbound = .superClass
      · exact Or.inl ⟨hc, hsame.trans hc⟩
      · refine Or.inr (Or.inr fun r hr => ?_)
        rw [hsame]
        rcases hr with rfl | rfl
        exacts [⟨Ne.symm hc, Ne.symm hc⟩, ⟨Ne.symm hi, Ne.symm hi⟩]
  intro s t
  rw [isInterface_link hl]
  rcases hkinds with ⟨ho, hin⟩ | ⟨ho, hin⟩ | hne
  · rcases link_superTypes hl hstaged (Or.inl hin) with hsame | hnone
    · rw [hsame, hsame, hsame]
      exact hr s t
    · simp only [mem_targets_link hl (by rw [ho]; rfl) hnone, hr s t, ho, hin]
      grind
  · have hsuper : l.inbound = .superClass ∨ l.inbound = .superInterface := by
      rw [hin]
      split
      exacts [Or.inr rfl, Or.inl rfl]
    rcases link_superTypes hl hstaged hsuper with hsame | hnone
    · rw [hsame, hsame, hsame]
      exact hr s t
    · simp only [mem_targets_link hl (by rw [ho]; rfl) hnone, hr s t, ho, hin]
      grind
  · have hclass := hne .superClass (Or.inl rfl)
    have hiface := hne .superInterface (Or.inr rfl)
    rw [targets_link_ne hl hclass.1 hclass.2, targets_link_ne hl hclass.1 hclass.2,
      targets_link_ne hl hiface.1 hiface.2]
    exact hr s t

/-- What agreeing models share and proper links keep holds after every run that adds super interfaces as such. -/
theorem run_proper {P : ClassModel → Prop} (policy : Policy) (start : P (empty policy))
    (agree : ∀ m m', Moves (empty policy) m → Agree m m' → P m → P m')
    (link : ∀ m l, Moves (empty policy) m → l.Fits m → l.Proper m → P m → P (m.link l).1) {ops : List Operation}
    (proper : ∀ op ∈ ops, op.isPlainSuperInterface = false) : P ((empty policy).run ops).1 := by
  have hrun : ∀ (m : ClassModel) (ops : List Operation), Moves (empty policy) m → P m →
      (∀ op ∈ ops, op.isPlainSuperInterface = false) → P (m.run ops).1 := by
    intro m ops
    induction ops generalizing m with
    | nil => exact fun _ hP _ => hP
    | cons op ops ih =>
      intro hmoves hP hops
      refine ih (m.step op).1 (hmoves.trans (step_moves m op)) ?_ fun op' hop' =>
        hops op' (List.mem_cons_of_mem op hop')
      rcases step_agree_or_link m op with ha | ⟨l, hl, e, hproper⟩
      · exact agree m _ hmoves ha hP
      · rw [e]
        exact link m l hmoves hl (hproper (hops op (List.mem_cons_self ..))) hP
  exact hrun (empty policy) ops Relation.ReflTransGen.refl start proper

theorem run_realized (policy : Policy) {ops : List Operation}
    (proper : ∀ op ∈ ops, op.isPlainSuperInterface = false) : Realized ((empty policy).run ops).1 :=
  run_proper policy (realized_empty policy) (fun _ _ _ ha hr => hr.agree ha)
    (fun _ _ hmoves hl hproper hr => hr.link hl hproper hmoves.staged) proper

/-- Only interfaces are listed as sub-interfaces. -/
def SubInterfaces (m : ClassModel) : Prop :=
  ∀ s t, s ∈ (m.classAt t).targets .inbound .superInterface → (m.classAt s).isInterface = true

theorem subInterfaces_empty (policy : Policy) : SubInterfaces (empty policy) := by
  simp [SubInterfaces]

theorem SubInterfaces.agree (hi : SubInterfaces m) (hm : Closed m) (ha : Agree m m') : SubInterfaces m' := by
  intro s t hs
  rw [ha.targets] at hs
  rw [isInterface, attributes, ha.element s (hm.targets t _ _ s hs).1]
  exact hi s t hs

/-- A link that is listed as one of sub-interfaces starts from an interface. -/
theorem SubInterfaces.link (hi : SubInterfaces m) (hl : l.Fits m) (hproper : l.Proper m) :
    SubInterfaces (m.link l).1 := by
  have hsource (hin : l.inbound = .superInterface) : (m.classAt l.source).isInterface = true := by
    have hout : l.outbound = .superInterface := by
      rcases hl.listed with h | ⟨ho, -⟩
      exacts [h.symm.trans hin, ho]
    by_contra hno
    rw [hproper hout, if_neg hno] at hin
    cases hin
  have hrecord (x : Handle) : ((m.record l.source .outbound l.outbound l.target).1.classAt x).targets .inbound
      .superInterface = (m.classAt x).targets .inbound .superInterface :=
    targets_of_record_ne hl.source_lt (by simp)
  intro s t hs
  rw [isInterface_link hl]
  rcases link_cases m l with ⟨-, e⟩ | ⟨-, e⟩ <;> rw [e] at hs
  · exact hi s t (hrecord t ▸ hs)
  · rcases mem_targets_of_record (target_lt_record hl) hs with hold | ⟨-, -, -, hin, rfl⟩
    · exact hi s t (hrecord t ▸ hold)
    · exact hsource hin.symm

theorem run_subInterfaces (policy : Policy) {ops : List Operation}
    (proper : ∀ op ∈ ops, op.isPlainSuperInterface = false) : SubInterfaces ((empty policy).run ops).1 :=
  run_proper policy (subInterfaces_empty policy)
    (fun _ _ hmoves ha hi => hi.agree (hmoves.wellFormed (wellFormed_empty policy)).toClosed ha)
    (fun _ _ _ hl hproper hi => hi.link hl hproper) proper

end ClassModel

end ClassAtlas
