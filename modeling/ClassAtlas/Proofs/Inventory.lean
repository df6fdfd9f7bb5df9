import ClassAtlas.Proofs.Arrangement
import ClassAtlas.Proofs.OrderFree
import Mathlib.Algebra.Ring.Nat

/-! The classes of a built model, place by place (`build_inventory`): first the declared ones, then a placeholder for
each undeclared id, in the order of the first references to them. The counts of the build are the lengths of these
lists. -/

namespace ClassAtlas

open ClassModel

section Mentions

variable {known : List String} {rs : List RelationDeclaration} {r : RelationDeclaration}

/-- First mentions are the targets that are not known, each where it first stands. -/
theorem targets_firstMentions (known : List String) (rs : List RelationDeclaration) :
    (firstMentions known rs).map (·.target) = ((rs.map (·.target)).filter (· ∉ known)).eraseDups := by
  induction rs generalizing known with
  | nil => rfl
  | cons k rs ih =>
    rw [firstMentions, List.map_cons]
    split
    · rename_i hk
      rw [ih, List.filter_cons_of_neg (by simpa using hk)]
    · rename_i hk
      rw [List.map_cons, ih, List.filter_cons_of_pos (by simpa using hk), List.eraseDups_cons, List.filter_filter]
      congr 2
      refine List.filter_congr fun id _ => ?_
      by_cases hid : id = k.target <;> simp [hid]

/-- A first mention is the first reference to its target. -/
theorem find?_of_mem_firstMentions (h : r ∈ firstMentions known rs) :
    rs.find? (fun k => k.target = r.target) = some r := by
  induction rs generalizing known with
  | nil => cases h
  | cons k rs ih =>
    have hr := (mem_of_mem_firstMentions h).2
    rw [firstMentions] at h
    split at h
    · rename_i hk
      have hne : k.target ≠ r.target := fun e => hr (e ▸ hk)
      rw [List.find?_cons_of_neg (by simpa using hne), ih h]
    · rcases List.mem_cons.1 h with rfl | h
      · simp
      · have hne : k.target ≠ r.target := by
          intro e
          exact (mem_of_mem_firstMentions h).2 (e ▸ List.mem_cons_self ..)
        rw [List.find?_cons_of_neg (by simpa using hne), ih h]

end Mentions

/-- The references of a snapshot, declaration by declaration: the super class, then the interfaces, then the
relations. -/
def Snapshot.referencesInOrder (s : Snapshot) : List RelationDeclaration :=
  s.classes.flatMap fun d =>
    d.superClass.toList.map (⟨.superClass, ·⟩) ++ d.interfaces.map (⟨.superInterface, ·⟩) ++ d.relations

/-- The ids that a snapshot refers to without declaring them, each once, in the order of the first references. -/
def Snapshot.undeclared (s : Snapshot) : List String :=
  ((s.referencesInOrder.map (·.target)).filter (· ∉ s.classes.map (·.id))).eraseDups

theorem Snapshot.referencesInOrder_eq (s : Snapshot) : s.referencesInOrder = s.references := rfl

theorem Snapshot.targets_mentions (s : Snapshot) : s.mentions.map (·.target) = s.undeclared :=
  targets_firstMentions _ _

theorem Snapshot.length_mentions (s : Snapshot) : s.mentions.length = s.undeclared.length := by
  rw [← s.targets_mentions, List.length_map]

/-- The members of a declaration; where one has no id, it gets that of the class, a dot and its own name. -/
def ClassDeclaration.filledMembers (d : ClassDeclaration) : List Element :=
  d.members.map fun x =>
    if x.id = "" then { x with attributes := { x.attributes with id := d.id ++ "." ++ x.name } } else x

theorem ClassDeclaration.filledMembers_eq (d : ClassDeclaration) : d.filledMembers = d.ownMembers := by
  refine List.map_congr_left fun x _ => ?_
  simp only [memberElement, String.isEmpty_iff]

/-- The class of a declaration after a build. -/
structure Holds (policy : Policy) (d : ClassDeclaration) (n : ClassNode) : Prop where
  element : n.element = d.toElement
  id : n.id = d.id
  typeParameters : n.typeParameters = d.typeParameters
  lifecycle : n.lifecycle = .relationsFinalized
  isInterface : n.isInterface = true ↔ d.kind = .interface ∨ d.modifiers.contains .interface = true
  members : ∀ kind, StablySorted (fun a b => policy.compare a.attributes b.attributes)
    (d.filledMembers.filter fun x => x.kind = kind) (n.membersOf kind)

/-- The placeholder that a reference to an undeclared id leaves. Its kind and its modifiers follow from the relation
of the reference. -/
structure StandsIn (r : RelationDeclaration) (n : ClassNode) : Prop where
  element : n.element = placeholder r.target r.relation
  id : n.id = r.target
  asInterface : r.relation = .superInterface →
    n.element.kind = .interface ∧ ∀ x, n.attributes.has x = true ↔ x = .interface ∨ x = .abstract
  asThrowable : r.relation = .throwsDependency →
    n.element.kind = .throwable ∧ ∀ x, n.attributes.has x = true ↔ x = .throwable
  asAnnotationType : r.relation = .annotationDependency →
    n.element.kind = .annotationType ∧ ∀ x, n.attributes.has x = true ↔ x = .annotationType
  asClass : r.relation ∉ [.superInterface, .throwsDependency, .annotationDependency] →
    n.element.kind = .classType ∧ ∀ x, n.attributes.has x = false
  typeParameters : n.typeParameters = []
  lifecycle : n.lifecycle = .membersFinalized
  members : ∀ kind, n.membersOf kind = []

/-- What the element of a placeholder is, relation by relation. -/
theorem StandsIn.of_element {r : RelationDeclaration} {n : ClassNode}
    (element : n.element = placeholder r.target r.relation) (typeParameters : n.typeParameters = [])
    (lifecycle : n.lifecycle = .membersFinalized) (members : ∀ kind, n.membersOf kind = []) : StandsIn r n := by
  have hid : n.id = r.target := congrArg Element.id element
  refine ⟨element, hid, ?_, ?_, ?_, ?_, typeParameters, lifecycle, members⟩ <;>
    rw [ClassNode.attributes, element] <;> rcases r with ⟨r, target⟩ <;> cases r <;>
    simp [placeholder, placeholderRole, Element.kind, Attributes.has, ModifierSet.ofList,
      ModifierSet.contains_insertAll]

namespace Built

variable {policy : Policy} {s : Snapshot} {m : ClassModel}

theorem holds (hb : Built policy s m) {h : Nat} {d : ClassDeclaration} (hd : s.classes[h]? = some d) :
    Holds policy d (m.classAt h) := by
  have hc := hb.furnished.declared h d hd
  exact
    { element := congrArg Content.element hc
      typeParameters := congrArg Content.typeParameters hc
      lifecycle := congrArg Content.lifecycle hc
      id := hb.assembled.id_eq hd
      isInterface := by rw [hb.assembled.isInterface_eq hd, ClassDeclaration.isInterface_iff]
      members := d.filledMembers_eq ▸ stablySorted_membersOf (congrArg Content.members hc) }

theorem standsIn (hb : Built policy s m) {k : Nat} {r : RelationDeclaration} (hr : s.mentions[k]? = some r) :
    StandsIn r (m.classAt (s.classes.length + k)) := by
  have hc := hb.furnished.mentioned k r hr
  refine .of_element (congrArg Content.element hc) (congrArg Content.typeParameters hc)
    (congrArg Content.lifecycle hc) fun kind => ?_
  exact (stablySorted_membersOf (congrArg Content.members hc) kind).eq

theorem ids (hb : Built policy s m) : m.classes.map (·.id) = s.classes.map (·.id) ++ s.undeclared := by
  rw [← s.targets_mentions]
  refine List.ext_getElem? fun h => ?_
  rcases Nat.lt_or_ge h m.size with hh | hh
  · rw [List.getElem?_map, getElem?_classes hh]
    rcases hb.declared_or_mentioned hh with ⟨d, hd⟩ | ⟨k, r, hr, rfl⟩
    · have hlt : h < s.classes.length := (List.getElem?_eq_some_iff.1 hd).1
      rw [List.getElem?_append_left (by simpa using hlt), List.getElem?_map, hd]
      exact congrArg some (hb.assembled.id_eq hd)
    · rw [List.getElem?_append_right (by simp), List.length_map, Nat.add_sub_cancel_left, List.getElem?_map, hr]
      have hid := congrArg Element.id (hb.standsIn hr).element
      exact congrArg some hid
  · rw [List.getElem?_eq_none (by rw [List.length_map]; exact hh), List.getElem?_eq_none]
    rw [List.length_append, List.length_map, List.length_map]
    exact hb.furnished.size ▸ hh

end Built

namespace Build

variable {p p' p1 : Progress} {m m' : ClassModel} {source : Handle} {members relations : Nat}

/-- What was counted between two stages of a build. -/
structure Tallied (members relations : Nat) (p p' : Progress) : Prop where
  declared : p'.stats.declared = p.stats.declared
  placeholders : p'.model.size + p.stats.placeholders = p.model.size + p'.stats.placeholders
  members : p'.stats.members = p.stats.members + members
  relations : p'.stats.relations = p.stats.relations + relations

theorem Tallied.refl (p : Progress) : Tallied 0 0 p p := ⟨rfl, rfl, rfl, rfl⟩

theorem Tallied.trans {members' relations' : Nat} (h : Tallied members relations p p1)
    (h' : Tallied members' relations' p1 p') : Tallied (members + members') (relations + relations') p p' where
  declared := h'.declared.trans h.declared
  placeholders := by
    have := h.placeholders
    have := h'.placeholders
    omega
  members := by rw [h'.members, h.members, Nat.add_assoc]
  relations := by rw [h'.relations, h.relations, Nat.add_assoc]

/-- Steps in a row count what each of them counts. -/
theorem tallied_foldlM {α : Type} {step : Progress → α → Except BuildFailure Progress} (given seen : α → Nat)
    (hstep : ∀ a {p p'}, step p a = .ok p' → Tallied (given a) (seen a) p p') {xs : List α}
    (he : xs.foldlM step p = .ok p') : Tallied (xs.map given).sum (xs.map seen).sum p p' := by
  induction xs generalizing p with
  | nil =>
    cases he
    exact Tallied.refl _
  | cons a xs ih =>
    rw [List.foldlM_cons] at he
    obtain ⟨p1, h1, he⟩ := bind_eq_ok he
    rw [List.map_cons, List.sum_cons, List.map_cons, List.sum_cons]
    exact (hstep a h1).trans (ih he)

theorem tallied_addMember {x : Element} (he : addMember source p x = .ok p') : Tallied 1 0 p p' := by
  unfold addMember at he
  rcases addMember_cases p.model source x with ⟨-, e⟩ | ⟨-, e⟩ <;> rw [e] at he <;> cases he
  exact ⟨rfl, by simp, rfl, rfl⟩

theorem tallied_resolve {r : RelationDeclaration} {t : Handle} (he : resolve p r = .ok (p', t)) :
    Tallied 0 0 p p' := by
  unfold resolve at he
  split at he
  · cases he
    exact Tallied.refl p
  · unfold addClass at he
    split at he
    · cases he
    · rename_i hadd
      split at hadd
      · cases hadd
      · cases hadd
        cases he
        exact ⟨rfl, by simp [Nat.add_assoc, Nat.add_comm], rfl, rfl⟩

theorem tallied_addReference {r : RelationDeclaration} (he : addReference source p r = .ok p') :
    Tallied 0 1 p p' := by
  obtain ⟨⟨p1, t⟩, hres, he⟩ := bind_eq_ok he
  have hr := resembles_connect p1.model source r.relation t
  dsimp only at he
  split at he
  · cases he
  · rename_i m hconnect
    cases he
    rw [hconnect] at hr
    have hconnected : Tallied 0 1 p1 ⟨m, { p1.stats with relations := p1.stats.relations + 1 }⟩ :=
      ⟨rfl, by rw [hr.size], rfl, rfl⟩
    simpa using (tallied_resolve hres).trans hconnected

theorem tallied_wire {d : ClassDeclaration × Handle} (he : wire p d = .ok p') :
    Tallied d.1.members.length d.1.references.length p p' := by
  obtain ⟨p1, h1, he⟩ := bind_eq_ok he
  have hmembers := tallied_foldlM (fun _ => 1) (fun _ => 0) (fun _ => tallied_addMember) h1
  have hrefs := tallied_foldlM (fun _ => 0) (fun _ => 1) (fun _ => tallied_addReference) he
  simpa [Function.comp_def] using hmembers.trans hrefs

/-- Classes that are finished one after the other stay as many as they are. -/
theorem size_foldlM {finish : ClassModel → Handle → Except Refusal ClassModel}
    (hfin : ∀ {m h m'}, finish m h = .ok m' → m'.size = m.size) {hs : List Handle}
    (he : hs.foldlM (fun m h => (finish m h).mapError BuildFailure.refused) m = .ok m') : m'.size = m.size := by
  have hsize : (m.finishEach finish hs).1.size = m.size :=
    finishEach_invariant (P := fun m' => m'.size = m.size) (fun _ _ _ he hm1 => (hfin he).trans hm1) rfl hs
  rw [foldlM_mapError] at he
  split at he <;> cases he
  rename_i hdone
  rwa [hdone] at hsize

theorem size_finishMembers (he : finishMembers m = .ok m') : m'.size = m.size := by
  rw [finishMembers_eq] at he
  refine size_foldlM (fun hfin => ?_) he
  obtain ⟨-, -, rfl⟩ := finishMembers_eq_ok_iff.1 hfin
  exact size_modify _

theorem size_finishRelations {hs : List Handle} (he : hs.foldlM finishRelations m = .ok m') : m'.size = m.size := by
  refine size_foldlM (fun hfin => ?_) he
  obtain ⟨-, -, -, rfl⟩ := finishRelations_eq_ok_iff.1 hfin
  exact size_modify _

/-- What a build reports about a snapshot and the number of its classes. -/
theorem stats_of_assemble {policy : Policy} {s : Snapshot} (he : assemble policy s = .ok p) :
    p.stats.declared = s.classes.length ∧ p.model.size = s.classes.length + p.stats.placeholders ∧
    p.stats.members = (s.classes.map (·.members.length)).sum ∧ p.stats.relations = s.references.length := by
  obtain ⟨⟨m, declared⟩, hdeclare, he⟩ := bind_eq_ok he
  obtain ⟨p1, hwire, he⟩ := bind_eq_ok he
  obtain ⟨m1, h1, he⟩ := bind_eq_ok he
  obtain ⟨m2, h2, he⟩ := bind_eq_ok he
  cases he
  obtain ⟨-, rfl, hclasses, -⟩ := declare_classes hdeclare
  have htally := tallied_foldlM (fun d => d.1.members.length) (fun d => d.1.references.length)
    (fun _ => tallied_wire) hwire
  have hsize : m.size = s.classes.length := by
    rw [ClassModel.size, hclasses]
    simp [ClassModel.empty]
  have hparts {α : Type} (part : ClassDeclaration → α) :
      (s.classes.zipIdx (empty policy).size).map (fun d => part d.1) = s.classes.map part := by
    rw [← List.zipIdx_map_fst (empty policy).size s.classes, List.map_map, List.zipIdx_map_fst]
    rfl
  refine ⟨?_, ?_, ?_, ?_⟩
  · rw [htally.declared]
    exact List.length_zipIdx
  · have hcount : p1.model.size + 0 = m.size + p1.stats.placeholders := htally.placeholders
    rw [size_finishRelations h2, size_finishMembers h1, ← hsize, ← hcount, Nat.add_zero]
  · rw [htally.members, hparts fun d => d.members.length, Nat.zero_add]
  · rw [htally.relations, hparts fun d => d.references.length, Nat.zero_add, Snapshot.references,
      List.length_flatMap]

end Build

/-- What a build has made of a snapshot. -/
structure Inventory (policy : Policy) (s : Snapshot) (m : ClassModel) (stats : BuildStats) : Prop where
  ids : m.classes.map (·.id) = s.classes.map (·.id) ++ s.undeclared
  handles : ∀ h < m.size, (m.classAt h).handle = h
  declared : ∀ (h : Nat) d, s.classes[h]? = some d → Holds policy d (m.classAt h)
  placeholders : ∀ h < m.size, s.classes.length ≤ h →
    ∃ r, s.referencesInOrder.find? (fun k => k.target = (m.classAt h).id) = some r ∧ StandsIn r (m.classAt h)
  processed : ∀ h < m.size, (m.classAt h).isProcessed = true ↔ h < s.classes.length
  stats_eq : stats =
    { declared := s.classes.length
      placeholders := s.undeclared.length
      members := (s.classes.map (·.members.length)).sum
      relations := s.referencesInOrder.length }
  balance : stats.declared + stats.placeholders = m.size

namespace Snapshot

variable {policy : Policy} {s : Snapshot} {m : ClassModel} {stats : BuildStats}

theorem stats_of_build (h : s.build policy = .ok (m, stats)) :
    ∃ p, Build.assemble policy s = .ok p ∧ p.model = m ∧ p.stats = stats := by
  obtain ⟨p, hp, h⟩ := bind_eq_ok h
  split at h <;> cases h
  exact ⟨p, hp, rfl, rfl⟩

theorem build_inventory (h : s.build policy = .ok (m, stats)) : Inventory policy s m stats := by
  have hb := built_of_build h
  obtain ⟨p, hp, rfl, rfl⟩ := stats_of_build h
  obtain ⟨hdeclared, hsize, hmembers, hrelations⟩ := Build.stats_of_assemble hp
  have hcount : p.stats.placeholders = s.undeclared.length := by
    have := hb.furnished.size
    rw [s.length_mentions] at this
    omega
  have hplace {h : Nat} (hh : h < p.model.size) (hn : s.classes.length ≤ h) :
      ∃ k r, s.mentions[k]? = some r ∧ h = s.classes.length + k := by
    rcases hb.declared_or_mentioned hh with ⟨d, hd⟩ | hk
    · exact absurd (List.getElem?_eq_some_iff.1 hd).1 (Nat.not_lt.2 hn)
    · exact hk
  refine ⟨hb.ids, hb.assembled.wellFormed.numbered, fun h d => hb.holds, ?_, ?_, ?_, ?_⟩
  · intro h hh hn
    obtain ⟨k, r, hr, rfl⟩ := hplace hh hn
    have hstands := hb.standsIn hr
    have hid : (p.model.classAt (s.classes.length + k)).id = r.target := congrArg Element.id hstands.element
    rw [hid]
    exact ⟨r, find?_of_mem_firstMentions (List.mem_of_getElem? hr), hstands⟩
  · intro h hh
    rw [ClassNode.isProcessed]
    rcases Nat.lt_or_ge h s.classes.length with hlt | hge
    · have hfinal := (hb.holds (List.getElem?_eq_getElem hlt)).lifecycle
      simp [hfinal, hlt]
    · obtain ⟨k, r, hr, rfl⟩ := hplace hh hge
      simp [(hb.standsIn hr).lifecycle]
  · rw [← hdeclared, ← hcount, ← hmembers, s.referencesInOrder_eq, ← hrelations]
  · rw [hdeclared, hsize]

/-- A class with fields out of order, one of them with an id of its own, a class with a super class and an interface
that are not declared, and other undeclared ids, of which one is first an exception and then an interface. -/
def staffed : Snapshot where
  classes :=
    [{ id := "A", relations := [⟨.throwsDependency, "E"⟩],
       members := [{ attributes := { id := "", name := "y", kind := .fields } },
        { attributes := { id := "", name := "x", kind := .fields } },
        { attributes := { id := "w#1", name := "w", kind := .fields } }] },
     { id := "B", superClass := some "S", interfaces := ["E", "J"],
       relations := [⟨.annotationDependency, "N"⟩, ⟨.association, "A"⟩] },
     { id := "I", kind := .interface }]

theorem build_inventory_staffed : ∃ m stats, staffed.build .byKind = .ok (m, stats) ∧
    Inventory .byKind staffed m stats ∧ staffed.undeclared = ["E", "S", "J", "N"] ∧
    m.classes.map (fun n => (n.id, n.element.kind, n.attributes.modifiers.toList, n.isProcessed)) =
      [("A", .classType, [], true), ("B", .classType, [], true), ("I", .interface, [.interface], true),
       ("E", .throwable, [.throwable], false), ("S", .classType, [], false),
       ("J", .interface, [.abstract, .interface], false), ("N", .annotationType, [.annotationType], false)] ∧
    m.classes.map (fun n => (n.membersOf .fields).map (·.id)) = [["w#1", "A.x", "A.y"], [], [], [], [], [], []] ∧
    stats = { declared := 3, placeholders := 4, members := 3, relations := 6 } := by
  have hok : (staffed.build .byKind).isOk = true := by decide +kernel
  obtain ⟨built, hb⟩ := exists_of_isOk hok
  exact ⟨built.1, built.2, hb, build_inventory hb, by decide +kernel,
    apply_of_ok (f := fun b => b.1.classes.map _) hb (by decide +kernel),
    apply_of_ok (f := fun b => b.1.classes.map _) hb (by decide +kernel),
    apply_of_ok (f := fun b => b.2) hb (by decide +kernel)⟩

end Snapshot

end ClassAtlas
