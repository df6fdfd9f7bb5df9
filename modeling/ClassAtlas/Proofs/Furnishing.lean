import ClassAtlas.Proofs.Assembly
import ClassAtlas.Proofs.Changes
import ClassAtlas.Proofs.Contents

/-! The classes of a built model (`furnished_of_assemble`): the declared classes come first, in the order of the
snapshot, with their members in order, and after them stand placeholders, one for each undeclared id, made from its
first mention. -/

namespace ClassAtlas

open ClassModel

/-- The members that a declaration adds. -/
def ClassDeclaration.ownMembers (d : ClassDeclaration) : List Element := d.members.map d.memberElement

/-- What a declaration comes to. -/
def ClassDeclaration.content (policy : Policy) (d : ClassDeclaration) : Content :=
  (Content.unfinished d.toElement d.typeParameters d.ownMembers |>.finishMembers policy).finishRelations

/-- What the mention of an undeclared id comes to. -/
def RelationDeclaration.content (policy : Policy) (r : RelationDeclaration) : Content :=
  (Content.unfinished (placeholder r.target r.relation) [] []).finishMembers policy

/-- The references whose target is new: not among the known ids and not the target of an earlier reference. -/
def firstMentions (known : List String) : List RelationDeclaration → List RelationDeclaration
  | [] => []
  | r :: rs => if r.target ∈ known then firstMentions known rs else r :: firstMentions (r.target :: known) rs

/-- All references of a snapshot in order. -/
def Snapshot.references (s : Snapshot) : List RelationDeclaration := s.classes.flatMap (·.references)

/-- The first mention of each undeclared id. -/
def Snapshot.mentions (s : Snapshot) : List RelationDeclaration :=
  firstMentions (s.classes.map (·.id)) s.references

/-- What succeeds in two steps succeeds in each. -/
theorem bind_eq_ok {ε α β : Type} {x : Except ε α} {f : α → Except ε β} {b : β} (h : x >>= f = .ok b) :
    ∃ a, x = .ok a ∧ f a = .ok b := by
  cases x with
  | error e => cases h
  | ok a => exact ⟨a, rfl, h⟩

section Mentions

variable {known : List String} {rs : List RelationDeclaration} {r : RelationDeclaration} {id : String}

theorem firstMentions_append_singleton : firstMentions known (rs ++ [r]) =
    firstMentions known rs ++ if r.target ∈ known ∨ r.target ∈ rs.map (·.target) then [] else [r] := by
  induction rs generalizing known with
  | nil => simp [firstMentions]
  | cons k rs ih =>
    rw [List.cons_append, firstMentions, firstMentions]
    split
    · rename_i hk
      rw [ih]
      congr 2
      grind
    · rw [ih, List.cons_append]
      congr 2
      grind

theorem mem_of_mem_firstMentions (h : r ∈ firstMentions known rs) : r ∈ rs ∧ r.target ∉ known := by
  induction rs generalizing known with
  | nil => cases h
  | cons k rs ih =>
    rw [firstMentions] at h
    split at h
    · exact ⟨List.mem_cons_of_mem k (ih h).1, (ih h).2⟩
    · rename_i hk
      rcases List.mem_cons.1 h with rfl | h
      · exact ⟨List.mem_cons_self .., hk⟩
      · exact ⟨List.mem_cons_of_mem k (ih h).1, fun hr => (ih h).2 (List.mem_cons_of_mem _ hr)⟩

end Mentions

namespace Build

variable {p p' : Progress} {m m' : ClassModel} {ds : List ClassDeclaration} {given : Handle → List Element}
  {seen : List RelationDeclaration} {s : Handle}

/-- A model under construction, after the members `given` and the references `seen`. -/
structure Stocked (ds : List ClassDeclaration) (given : Handle → List Element) (seen : List RelationDeclaration)
    (m : ClassModel) : Prop where
  heads : m.heads = ds.map (fun d => (d.toElement, d.typeParameters)) ++
    (firstMentions (ds.map (·.id)) seen).map fun r => (placeholder r.target r.relation, [])
  known : ∀ id, m.handle? id ≠ none ↔ id ∈ ds.map (·.id) ∨ id ∈ seen.map (·.target)
  members : ∀ h, (m.classAt h).members = membersByKind (given h)

theorem Stocked.resembles (hm : Stocked ds given seen m) (hr : Resembles m m') : Stocked ds given seen m' where
  heads := hr.heads.trans hm.heads
  known id := by rw [hr.handle?, hm.known]
  members h := (congrArg Content.members (hr.content h)).trans (hm.members h)

theorem Stocked.member (hm : Stocked ds given seen m) (hs : s < m.size) {x : Element}
    (he : m.addMember s x = (m', none)) :
    m'.size = m.size ∧ Stocked ds (Function.update given s (given s ++ [x])) seen m' := by
  rcases addMember_cases m s x with ⟨-, e⟩ | ⟨-, e⟩ <;> rw [e] at he <;> cases he
  refine ⟨size_modify _, ?_, hm.known, fun h => ?_⟩
  · rw [← hm.heads, ClassModel.heads, ClassModel.heads, classes_eq, classes_eq, size_modify, List.map_map,
      List.map_map]
    refine List.map_congr_left fun i _ => ?_
    simp only [Function.comp, classAt_modify hs]
    split
    · rename_i e
      rw [e]
      rfl
    · rfl
  · rw [classAt_modify hs]
    by_cases hh : h = s
    · subst hh
      rw [if_pos rfl, Function.update_self, membersByKind_append_singleton, ← hm.members]
      rfl
    · rw [if_neg hh, Function.update_of_ne hh, hm.members]

/-- The classes under construction, place by place. -/
theorem Stocked.content (hm : Stocked ds given seen m) (hopen : Unfinished m) {h : Handle} {e : Element}
    {ps : List TypeRef} (hh : m.heads[h]? = some (e, ps)) :
    (m.classAt h).content = Content.unfinished e ps (given h) := by
  unfold ClassModel.heads at hh
  rw [List.getElem?_map, Option.map_eq_some_iff] at hh
  obtain ⟨n, hn, hhead⟩ := hh
  have hlt : h < m.size := (List.getElem?_eq_some_iff.1 hn).1
  rw [getElem?_classes hlt, Option.some.injEq] at hn
  subst hn
  simp only [Prod.mk.injEq] at hhead
  simp [ClassNode.content, Content.unfinished, hhead, hm.members, hopen.lifecycle]

/-- A reference registers a placeholder exactly if it is the first mention of its target. -/
theorem Stocked.resolve (hm : Stocked ds given seen p.model) {r : RelationDeclaration} {t : Handle}
    (he : resolve p r = .ok (p', t)) :
    p.model.size ≤ p'.model.size ∧ Stocked ds given (seen ++ [r]) p'.model := by
  unfold Build.resolve at he
  cases ht : p.model.handle? r.target with
  | some t' =>
    rw [ht] at he
    simp only [Except.ok.injEq, Prod.mk.injEq] at he
    obtain ⟨rfl, rfl⟩ := he
    have hknown := (hm.known r.target).1 (by rw [ht]; exact Option.some_ne_none t')
    refine ⟨Nat.le_refl _, ?_, fun id => ?_, hm.members⟩
    · rw [hm.heads, firstMentions_append_singleton, if_pos hknown, List.append_nil]
    · rw [hm.known, List.map_append, List.mem_append, List.map_singleton, List.mem_singleton]
      grind
  | none =>
    have hfresh : p.model.handle? (placeholder r.target r.relation).id = none := ht
    simp only [ht, addClass, hfresh, Except.ok.injEq, Prod.mk.injEq] at he
    obtain ⟨rfl, rfl⟩ := he
    have hnew := mt (hm.known r.target).2 (not_not.2 ht)
    refine ⟨by simp, ?_, fun id => ?_, fun h => ?_⟩
    · rw [heads_extend, hm.heads, firstMentions_append_singleton, if_neg hnew, List.map_append, List.append_assoc]
      rfl
    · rw [handle?_extend, List.map_append, List.mem_append, List.map_singleton, List.mem_singleton, ← or_assoc,
        ← hm.known, show (placeholder r.target r.relation).id = r.target from rfl]
      split <;> simp_all
    · rw [members_extend, hm.members]

theorem Stocked.reference (hm : Stocked ds given seen p.model) {r : RelationDeclaration}
    (he : addReference s p r = .ok p') :
    p.model.size ≤ p'.model.size ∧ Stocked ds given (seen ++ [r]) p'.model := by
  obtain ⟨⟨p1, t⟩, hres, he⟩ := bind_eq_ok he
  obtain ⟨hsize, hm1⟩ := hm.resolve hres
  have hr := resembles_connect p1.model s r.relation t
  dsimp only at he
  split at he
  · cases he
  · rename_i m hconnect
    cases he
    rw [hconnect] at hr
    exact ⟨hr.size ▸ hsize, hm1.resembles hr⟩

theorem Stocked.ofMembers {xs : List Element} (hm : Stocked ds given seen p.model) (hs : s < p.model.size)
    (he : xs.foldlM (addMember s) p = .ok p') :
    p'.model.size = p.model.size ∧ Stocked ds (Function.update given s (given s ++ xs)) seen p'.model := by
  induction xs generalizing p given with
  | nil =>
    cases he
    rw [List.append_nil, Function.update_eq_self]
    exact ⟨rfl, hm⟩
  | cons x xs ih =>
    rw [List.foldlM_cons, addMember] at he
    split at he
    · cases he
    · rename_i m hadd
      obtain ⟨hsize, hm1⟩ := hm.member hs hadd
      obtain ⟨hsize', hm'⟩ := ih (p := ⟨m, _⟩) hm1 (hsize ▸ hs) he
      rw [Function.update_idem, Function.update_self, List.append_assoc] at hm'
      exact ⟨hsize'.trans hsize, hm'⟩

theorem Stocked.ofReferences {rs : List RelationDeclaration} (hm : Stocked ds given seen p.model)
    (he : rs.foldlM (addReference s) p = .ok p') :
    p.model.size ≤ p'.model.size ∧ Stocked ds given (seen ++ rs) p'.model := by
  induction rs generalizing p seen with
  | nil =>
    cases he
    rw [List.append_nil]
    exact ⟨Nat.le_refl _, hm⟩
  | cons r rs ih =>
    rw [List.foldlM_cons] at he
    obtain ⟨p1, h1, he⟩ := bind_eq_ok he
    obtain ⟨hsize, hm1⟩ := hm.reference h1
    obtain ⟨hsize', hm'⟩ := ih hm1 he
    rw [List.append_assoc] at hm'
    exact ⟨Nat.le_trans hsize hsize', hm'⟩

theorem Stocked.wire (hm : Stocked ds given seen p.model) (hs : s < p.model.size) {d : ClassDeclaration}
    (he : wire p (d, s) = .ok p') : p.model.size ≤ p'.model.size ∧
      Stocked ds (Function.update given s (given s ++ d.ownMembers)) (seen ++ d.references) p'.model := by
  obtain ⟨p1, h1, he⟩ := bind_eq_ok he
  obtain ⟨hsize, hm1⟩ := hm.ofMembers hs h1
  rw [← hsize]
  exact hm1.ofReferences he

theorem Stocked.wireAll {declared : List (ClassDeclaration × Handle)} (hm : Stocked ds given seen p.model)
    (hs : ∀ d ∈ declared, d.2 < p.model.size) (he : declared.foldlM Build.wire p = .ok p') :
    Stocked ds (fun h => given h ++ allotted ClassDeclaration.ownMembers declared h)
      (seen ++ declared.flatMap (·.1.references)) p'.model := by
  -- each class adds to what is given and seen before the next one is read
  induction declared generalizing p given seen with
  | nil =>
    cases he
    simpa [allotted] using hm
  | cons d declared ih =>
    obtain ⟨d, s⟩ := d
    rw [List.foldlM_cons] at he
    obtain ⟨p1, h1, he⟩ := bind_eq_ok he
    obtain ⟨hsize, hm1⟩ := hm.wire (hs (d, s) (List.mem_cons_self ..)) h1
    have hm' := ih hm1 (fun k hk => Nat.lt_of_lt_of_le (hs k (List.mem_cons_of_mem _ hk)) hsize) he
    rw [List.append_assoc] at hm'
    rw [allotted_cons]
    exact hm'

/-- The declared classes are registered as they come. -/
theorem declare_classes {declared : List (ClassDeclaration × Handle)} (he : declare m ds = .ok (m', declared)) :
    m'.policy = m.policy ∧ declared = ds.zipIdx m.size ∧
      (m'.classes = m.classes ++ declared.map fun (d, h) =>
        { handle := h, element := d.toElement, typeParameters := d.typeParameters }) ∧
      ∀ id, m'.handle? id ≠ none ↔ m.handle? id ≠ none ∨ id ∈ ds.map (·.id) := by
  induction ds generalizing m declared with
  | nil =>
    cases he
    exact ⟨rfl, rfl, by simp, by simp⟩
  | cons d ds ih =>
    unfold declare at he
    split at he
    · cases he
    · rename_i m1 h hadd
      unfold addClass at hadd
      split at hadd
      · cases hadd
      · cases hadd
        obtain ⟨⟨m2, declared⟩, hrest, he⟩ := bind_eq_ok he
        cases he
        obtain ⟨hpolicy, rfl, hclasses, hknown⟩ := ih hrest
        refine ⟨hpolicy, ?_, ?_, fun id => ?_⟩
        · rw [List.zipIdx_cons, size_extend]
        · rw [hclasses, extend, register, List.append_assoc]
          rfl
        · rw [hknown, handle?_extend, List.map_cons, List.mem_cons, show d.toElement.id = d.id from rfl]
          split <;> simp_all

theorem stocked_declare {policy : Policy} {declared : List (ClassDeclaration × Handle)}
    (he : declare (empty policy) ds = .ok (m, declared)) : Stocked ds (fun _ => []) [] m := by
  obtain ⟨-, rfl, hclasses, hknown⟩ := declare_classes he
  have hnone (h : Handle) : (m.classAt h).members = membersByKind [] := by
    have hblank : ∀ n ∈ m.classes, n.members = membersByKind [] := by
      rw [hclasses]
      simp only [ClassModel.empty, List.nil_append, List.mem_map]
      rintro _ ⟨d, -, rfl⟩
      rfl
    rcases Nat.lt_or_ge h m.size with hh | hh
    · exact hblank _ (mem_classes.2 ⟨h, hh, rfl⟩)
    · rw [classAt_of_size_le hh]
      rfl
  refine ⟨?_, fun id => by rw [hknown]; simp [ClassModel.empty, ClassModel.handle?], hnone⟩
  rw [heads, hclasses, List.map_append, List.map_map]
  change _ = ds.map (fun d => (d.toElement, d.typeParameters)) ++ []
  rw [List.append_nil]
  calc [] ++ (ds.zipIdx 0).map _ = (ds.zipIdx 0).map ((fun d => (d.toElement, d.typeParameters)) ∘ Prod.fst) := rfl
    _ = _ := by rw [← List.map_map, List.zipIdx_map_fst]

theorem turns_finishAllMembers {policy : Policy} (hm : WellFormed m) (hpolicy : m.policy = policy)
    (he : finishMembers m = .ok m') : Turns (Content.finishMembers policy) (m.handlesIn .building) m m' := by
  refine turns_finishEach turns_finishMembers (nodup_handlesIn hm .building) hpolicy ?_
  unfold finishMembers finishAllMembers finishAllIn at he
  rcases hfin : m.finishEach ClassModel.finishMembers (m.handlesIn .building) with ⟨m1, r | _⟩ <;>
    simp only [hfin] at he <;> cases he
  rfl

end Build

/-- The classes of a model are those that a snapshot declares and mentions, in this order. -/
structure Furnished (policy : Policy) (s : Snapshot) (m : ClassModel) : Prop where
  policy_eq : m.policy = policy
  size : m.size = s.classes.length + s.mentions.length
  declared : ∀ (h : Nat) d, s.classes[h]? = some d → (m.classAt h).content = d.content policy
  mentioned : ∀ (k : Nat) r, s.mentions[k]? = some r →
    (m.classAt (s.classes.length + k)).content = r.content policy

namespace Build

variable {policy : Policy} {s : Snapshot} {p : Progress}

theorem furnished_of_assemble (hnodup : (s.classes.map (·.id)).Nodup) (he : assemble policy s = .ok p) :
    Furnished policy s p.model := by
  have hfresh : ∀ d ∈ s.classes, (empty policy).handle? d.id = none := fun _ _ => rfl
  obtain ⟨m, hm, hcalm, hw, hsize, -⟩ := declare_ok (wired_empty policy) hfresh hnodup
  simp only [show (empty policy).size = 0 from rfl, Nat.zero_add] at hm hsize
  have hinside : ∀ d ∈ s.classes.zipIdx, d.2 < m.size := fun d hd => hsize ▸ List.snd_lt_of_mem_zipIdx hd
  obtain ⟨p1, hp1, hcalm', hw'⟩ :=
    wireAll_ok (p := ⟨m, { declared := s.classes.zipIdx.length }⟩) hw hinside
  have hstock := (stocked_declare hm).wireAll hinside hp1
  -- the stages of the assembly are those that the wiring was followed through
  obtain ⟨_, hm', he⟩ := bind_eq_ok he
  cases hm.symm.trans hm'
  obtain ⟨_, hp1', he⟩ := bind_eq_ok he
  cases hp1.symm.trans hp1'
  obtain ⟨m1, h1, he⟩ := bind_eq_ok he
  obtain ⟨m2, h2, he⟩ := bind_eq_ok he
  cases he
  have hrefs : s.classes.zipIdx.flatMap (·.1.references) = s.references := by
    rw [Snapshot.references, ← List.zipIdx_map_fst 0 s.classes, List.flatMap_map, List.zipIdx_map_fst]
  rw [hrefs] at hstock
  rw [map_snd_zipIdx] at h2
  have hpolicy : p1.model.policy = policy := hcalm'.moves.policy.trans hcalm.moves.policy
  have hmembers := turns_finishAllMembers hw'.wellFormed hpolicy h1
  have hrelations : Turns Content.finishRelations (List.range s.classes.length) m1 m2 :=
    turns_finishEach (fun _ => turns_finishRelations) List.nodup_range (hmembers.policy.trans hpolicy)
      (foldlM_finishRelations.1 h2)
  rw [hw'.handlesIn_building] at hmembers
  have hlength : p1.model.size = s.classes.length + s.mentions.length := by
    have hlength := congrArg List.length hstock.heads
    rwa [heads, List.length_map, List.length_append, List.length_map, List.length_map] at hlength
  have hcontent (h : Nat) (hh : h < p1.model.size) : (m2.classAt h).content =
      if h < s.classes.length then ((p1.model.classAt h).content.finishMembers policy).finishRelations
      else (p1.model.classAt h).content.finishMembers policy := by
    rw [hrelations.content, hmembers.content]
    simp [hh]
  refine ⟨hrelations.policy.trans (hmembers.policy.trans hpolicy),
    (hrelations.size.trans hmembers.size).trans hlength, ?_, ?_⟩
  · intro h d hd
    have hlt : h < s.classes.length := (List.getElem?_eq_some_iff.1 hd).1
    have hhead : p1.model.heads[h]? = some (d.toElement, d.typeParameters) := by
      rw [hstock.heads, List.getElem?_append_left (by simpa using hlt), List.getElem?_map, hd]
      rfl
    rw [hcontent h (by omega), if_pos hlt, hstock.content hw'.unfinished hhead, ← Nat.zero_add h, allotted_zipIdx, hd]
    rfl
  · intro k r hr
    have hlt : k < s.mentions.length := (List.getElem?_eq_some_iff.1 hr).1
    have hhead : p1.model.heads[s.classes.length + k]? = some (placeholder r.target r.relation, []) := by
      rw [hstock.heads, List.getElem?_append_right (by simp), List.length_map, Nat.add_sub_cancel_left,
        List.getElem?_map]
      exact congrArg (Option.map _) hr
    rw [hcontent (s.classes.length + k) (by omega), if_neg (by omega), hstock.content hw'.unfinished hhead,
      ← Nat.zero_add (s.classes.length + k), allotted_zipIdx, List.getElem?_eq_none (by omega)]
    rfl

end Build

end ClassAtlas
