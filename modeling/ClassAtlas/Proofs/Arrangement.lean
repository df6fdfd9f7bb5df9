import ClassAtlas.Proofs.Contents
import ClassAtlas.Proofs.Persistence
import Mathlib.Data.List.Perm.Basic
import Mathlib.Data.List.Nodup

/-! The members of a class are those that a run added to it, in the order in which they came, and once they are
finished stably sorted, kind by kind (`Staffed`). They are sorted once, and so is a cell when it freezes, but whatever
happens to other classes later, both stay in order (`run_arranged`). -/

namespace ClassAtlas

open ClassModel

/-- The member that an operation added to a class. One that is refused or a violation added none. -/
def Operation.added? (h : Handle) : Operation × Reply → Option Element
  | (.addMember i x, .done) => if i = h then some x else none
  | _ => none

/-- The members that operations added to a class, in order, by what the operations answered. -/
def Operation.added (ops : List Operation) (replies : List Reply) (h : Handle) : List Element :=
  (ops.zip replies).filterMap (Operation.added? h)

theorem membersOf_membersByKind (xs : List Element) (kind : ElementKind) :
    ((membersByKind xs).get kind).getD [] = xs.filter fun x => x.kind = kind := by
  rw [membersByKind, EnumMap.get_ofFn]
  cases hxs : xs.filter fun x => x.kind = kind <;> simp

/-- Finished members are the given ones in order. -/
theorem stablySorted_membersOf {policy : Policy} {n : ClassNode} {xs : List Element}
    (h : n.members = ClassNode.sortedMembers policy (membersByKind xs)) (kind : ElementKind) :
    StablySorted (fun a b => policy.compare a.attributes b.attributes) (xs.filter fun x => x.kind = kind)
      (n.membersOf kind) := by
  let given : ClassNode := { n with members := membersByKind xs }
  have hsort : n.membersOf kind = (given.sortMembers policy).membersOf kind := by
    rw [ClassNode.membersOf, h]
    rfl
  rw [hsort, ClassNode.membersOf_sortMembers, show given.membersOf kind = _ from membersOf_membersByKind xs kind]
  exact stablySorted_sortBy _ _

/-- Elements sorted into bins by distinct keys are all there. -/
theorem flatMap_filter_perm {α κ : Type} [DecidableEq κ] (key : α → κ) {ks : List κ} (hnodup : ks.Nodup)
    (xs : List α) : (ks.flatMap fun k => xs.filter fun x => key x = k).Perm (xs.filter fun x => key x ∈ ks) := by
  induction ks with
  | nil => simp
  | cons k ks ih =>
    obtain ⟨hnew, hnodup⟩ := List.nodup_cons.1 hnodup
    have hfirst : (xs.filter fun x => key x ∈ k :: ks).filter (fun x => key x = k) = xs.filter fun x => key x = k := by
      rw [List.filter_filter]
      exact List.filter_congr fun x _ => by simp +contextual
    have hrest : (xs.filter fun x => key x ∈ k :: ks).filter (fun x => !decide (key x = k)) =
        xs.filter fun x => key x ∈ ks := by
      rw [List.filter_filter]
      refine List.filter_congr fun x _ => ?_
      by_cases hx : key x = k
      · simp [hx, hnew]
      · simp [hx]
    have hsplit := List.filter_append_perm (fun x => key x = k) (xs.filter fun x => key x ∈ k :: ks)
    rw [hfirst, hrest] at hsplit
    rw [List.flatMap_cons]
    exact ((ih hnodup).append_left _).trans hsplit

namespace ClassNode

variable {n n' : ClassNode} {policy : Policy} {xs : List Element} {x : Element}

/-- The class has the members `xs`: as they came while it takes members, and in order afterwards. -/
def Staffed (policy : Policy) (xs : List Element) (n : ClassNode) : Prop :=
  n.members = if n.lifecycle = .building then membersByKind xs else sortedMembers policy (membersByKind xs)

theorem Staffed.congr (hn : n.Staffed policy xs) (hlife : n'.lifecycle = n.lifecycle)
    (hmembers : n'.members = n.members) : n'.Staffed policy xs := by
  rw [Staffed, hlife, hmembers]
  exact hn

theorem Staffed.append (hn : n.Staffed policy xs) (taking : n.lifecycle = .building) :
    (n.append x).Staffed policy (xs ++ [x]) := by
  rw [Staffed, if_pos taking] at hn
  have hlife : (n.append x).lifecycle = .building := taking
  rw [Staffed, if_pos hlife, membersByKind_append_singleton, ← hn]
  rfl

theorem Staffed.finishMembers (hn : n.Staffed policy xs) (taking : n.lifecycle = .building)
    (order : List Handle → List Handle) : (n.finishMembers policy order).Staffed policy xs := by
  rw [Staffed, if_pos taking] at hn
  change sortedMembers policy n.members = sortedMembers policy (membersByKind xs)
  rw [hn]

theorem Staffed.finishRelations (hn : n.Staffed policy xs) (finished : n.lifecycle = .membersFinalized)
    (order : List Handle → List Handle) : (n.finishRelations order).Staffed policy xs := by
  rw [Staffed, finished] at hn
  exact hn

/-- The members are at hand by kind, finished or not. -/
theorem Staffed.membersOf_perm (hn : n.Staffed policy xs) (kind : ElementKind) :
    (n.membersOf kind).Perm (xs.filter fun x => x.kind = kind) := by
  by_cases hb : n.lifecycle = .building
  · rw [Staffed, if_pos hb] at hn
    rw [membersOf, hn, membersOf_membersByKind]
  · rw [Staffed, if_neg hb] at hn
    exact (stablySorted_membersOf hn kind).perm

theorem memberLists_flatMap (n : ClassNode) :
    n.memberLists.flatMap (·.2) = (every ElementKind).flatMap n.membersOf := by
  rw [memberLists, EnumMap.toList]
  induction every ElementKind with
  | nil => rfl
  | cons kind kinds ih =>
    rw [List.map_cons, List.filterMap_cons, List.flatMap_cons, ← ih]
    cases hlist : n.members.get kind <;> simp [membersOf, hlist]

/-- A kind with a list stands in the listing, with this list. -/
theorem mem_memberLists {n : ClassNode} {kind : ElementKind} (h : n.hasKind kind = true) :
    (kind, n.membersOf kind) ∈ n.memberLists := by
  obtain ⟨list, hlist⟩ := Option.isSome_iff_exists.1 h
  refine List.mem_filterMap.2 ⟨(kind, n.members.get kind), List.mem_map.2 ⟨kind, mem_every kind, rfl⟩, ?_⟩
  simp [membersOf, hlist]

theorem Staffed.memberLists_perm (hn : n.Staffed policy xs) : (n.memberLists.flatMap (·.2)).Perm xs := by
  rw [memberLists_flatMap]
  have hall : (xs.filter fun x => x.kind ∈ every ElementKind) = xs :=
    List.filter_eq_self.2 fun x _ => by simpa using mem_every x.kind
  have hbins := flatMap_filter_perm Element.kind nodup_every xs
  rw [hall] at hbins
  exact (List.Perm.flatMap_left _ fun kind _ => hn.membersOf_perm kind).trans hbins

/-- Once the members are finished there is a list for every member kind. -/
theorem Staffed.hasKind (hn : n.Staffed policy xs) (finished : n.lifecycle ≠ .building) {kind : ElementKind}
    (hkind : kind ∈ ElementKind.memberKinds) : n.hasKind kind = true := by
  rw [Staffed, if_neg finished] at hn
  rw [ClassNode.hasKind, hn, sortedMembers, EnumMap.get_mapWith]
  cases (membersByKind xs).get kind <;> simp [hkind]

end ClassNode

namespace ClassModel

open ClassNode

variable {m m' : ClassModel} {given : Handle → List Element} {h : Handle} {xs : List Element}

/-- Each class has the members it was given. -/
def Staffed (m : ClassModel) (given : Handle → List Element) : Prop := ∀ h, (m.classAt h).Staffed m.policy (given h)

theorem staffed_empty (policy : Policy) : Staffed (empty policy) fun _ => [] := by
  intro h
  rw [classAt_of_size_le (Nat.zero_le h)]
  apply EnumMap.ext_get
  simp [membersByKind]

theorem Staffed.resembles (hm : m.Staffed given) (hr : Resembles m m') : m'.Staffed given := by
  intro h
  rw [hr.policy]
  exact (hm h).congr (congrArg Content.lifecycle (hr.content h)) (congrArg Content.members (hr.content h))

/-- A new class takes members and has none, like the blank class. -/
theorem Staffed.extend (hm : m.Staffed given) (e : Element) (ps : List TypeRef) : (m.extend e ps).Staffed given := by
  intro h
  refine (hm h).congr ?_ (members_extend e ps h)
  rcases Nat.lt_trichotomy h m.size with hh | rfl | hh
  · rw [classAt_extend e ps hh]
  · rw [classAt_extend_size, classAt_of_size_le (Nat.le_refl _)]
  · rw [classAt_of_size_le (Nat.le_of_lt hh), classAt_of_size_le (by rw [size_extend]; exact hh)]

theorem Staffed.modify (hm : m.Staffed given) (hh : h < m.size) {f : ClassNode → ClassNode}
    (hf : (f (m.classAt h)).Staffed m.policy xs) : (m.modify h f).Staffed (Function.update given h xs) := by
  intro i
  rw [classAt_modify hh, Function.update_apply]
  split
  · exact hf
  · exact hm i

theorem Staffed.modify_self (hm : m.Staffed given) (hh : h < m.size) {f : ClassNode → ClassNode}
    (hf : (f (m.classAt h)).Staffed m.policy (given h)) : (m.modify h f).Staffed given :=
  Function.update_eq_self h given ▸ hm.modify hh hf

theorem Staffed.finishMembers (hm : m.Staffed given) (hfin : m.finishMembers h = .ok m') : m'.Staffed given := by
  obtain ⟨hh, taking, rfl⟩ := finishMembers_eq_ok_iff.1 hfin
  have hmodify : (m.modify h fun n => n.finishMembers m.policy m.sortHandles).Staffed given :=
    hm.modify_self hh ((hm h).finishMembers taking _)
  exact hmodify

theorem Staffed.finishRelations (hm : m.Staffed given) (hfin : m.finishRelations h = .ok m') : m'.Staffed given := by
  obtain ⟨hh, finished, -, rfl⟩ := finishRelations_eq_ok_iff.1 hfin
  exact hm.modify_self hh ((hm h).finishRelations finished _)

theorem Staffed.addMember (hm : m.Staffed given) (hh : h < m.size) (x : Element) :
    (m.addMember h x).1.Staffed fun i =>
      given i ++ (Operation.added? i (.addMember h x, .ofViolation (m.addMember h x).2)).toList := by
  rcases addMember_cases m h x with ⟨taking, e⟩ | ⟨-, e⟩ <;> rw [e]
  · have hgiven : (fun i => given i ++ (Operation.added? i (.addMember h x, .done)).toList) =
        Function.update given h (given h ++ [x]) := by
      funext i
      rw [Function.update_apply]
      by_cases hi : i = h
      · simp [Operation.added?, hi]
      · simp [Operation.added?, hi, Ne.symm hi]
    have hmodify : (m.modify h fun _ => (m.classAt h).append x).Staffed (Function.update given h (given h ++ [x])) :=
      hm.modify hh ((hm h).append taking)
    exact hgiven ▸ hmodify
  · simpa [Operation.added?, Reply.ofViolation] using hm

/-- Operations other than adding a member give no class any. -/
theorem Staffed.perform (hm : m.Staffed given) {op : Operation} (hop : ∀ h x, op ≠ .addMember h x) :
    (m.perform op).1.Staffed given := by
  cases op with
  | addMember h x => exact absurd rfl (hop h x)
  | addClass e ps =>
    simp only [ClassModel.perform, addClass]
    cases m.handle? e.id with
    | some _ => exact hm
    | none => exact hm.extend e ps
  | addRelation s r t =>
    change (m.addRelation s r t).1.Staffed given
    unfold ClassModel.addRelation
    split
    · exact hm
    · exact hm.resembles (resembles_link m ⟨s, r, t, r⟩)
  | addSuperInterface s t =>
    change (m.addSuperInterface s t).1.Staffed given
    unfold ClassModel.addSuperInterface
    split
    · exact hm
    · exact hm.resembles (resembles_link m ⟨s, .superInterface, t, _⟩)
  | _ =>
    exact perform_finishes (P := fun m => m.Staffed given) (fun _ _ _ hfin hm => hm.finishMembers hfin)
      (fun _ _ _ hfin hm => hm.finishRelations hfin) hm rfl

theorem Staffed.step (hm : m.Staffed given) (op : Operation) :
    (m.step op).1.Staffed fun h => given h ++ (Operation.added? h (op, (m.step op).2)).toList := by
  by_cases hop : ∃ h x, op = .addMember h x
  · obtain ⟨h, x, rfl⟩ := hop
    rcases Nat.lt_or_ge h m.size with hh | hh
    · rw [step_eq_perform (by simpa [Operation.handles] using hh)]
      exact hm.addMember hh x
    · simpa [ClassModel.step, Operation.handles, hh, Operation.added?] using hm
  · have hnone (h : Handle) (reply : Reply) : Operation.added? h (op, reply) = none := by
      cases op with
      | addMember i x => exact absurd ⟨i, x, rfl⟩ hop
      | _ => rfl
    simp only [hnone, Option.toList_none, List.append_nil]
    unfold ClassModel.step
    cases op.handles.find? fun h => m.size ≤ h with
    | some _ => exact hm
    | none => exact hm.perform fun h x e => hop ⟨h, x, e⟩

theorem Staffed.run (hm : m.Staffed given) (ops : List Operation) :
    (m.run ops).1.Staffed fun h => given h ++ Operation.added ops (m.run ops).2 h := by
  induction ops generalizing m given with
  | nil => simpa [ClassModel.run, Operation.added] using hm
  | cons op ops ih =>
    have hrest := ih (hm.step op)
    have hadded (h : Handle) : Operation.added (op :: ops) (m.run (op :: ops)).2 h =
        (Operation.added? h (op, (m.step op).2)).toList ++ Operation.added ops ((m.step op).1.run ops).2 h := by
      simp only [Operation.added, ClassModel.run, List.zip_cons_cons, List.filterMap_cons]
      cases Operation.added? h (op, (m.step op).2) <;> rfl
    simp only [hadded, ← List.append_assoc]
    exact hrest

/-- A class of a model, and the members that it was given: what is frozen or finished is in order, the members of each
kind are the given ones of that kind, stably sorted once they are finished, when each of the seven kinds of members has
a list, and over all kinds none is missing and none is there twice. -/
structure Arranged (m : ClassModel) (given : List Element) (n : ClassNode) : Prop where
  frozen : ∀ d r, (n.cell d r).frozen = true → Ascending m.compare (n.targets d r)
  taking : n.lifecycle = .building → ∀ kind, n.membersOf kind = given.filter fun x => x.kind = kind
  sorted : n.lifecycle ≠ .building → ∀ kind, Ascending m.compareMembers (n.membersOf kind) ∧
    StablySorted m.compareMembers (given.filter fun x => x.kind = kind) (n.membersOf kind)
  ofKind : ∀ kind, ∀ x ∈ n.membersOf kind, x.kind = kind
  present : n.lifecycle ≠ .building →
    ∀ kind ∈ [ElementKind.extends, .implements, .constants, .fields, .properties, .constructors, .methods],
      n.hasKind kind = true ∧ (kind, n.membersOf kind) ∈ n.memberLists
  all : (n.memberLists.flatMap (·.2)).Perm given

theorem Staffed.arranged (hm : m.Staffed given) (ht : Std.TransCmp m.policy.compare) (hf : FrozenAscending m)
    (h : Handle) : Arranged m (given h) (m.classAt h) := by
  have hn := hm h
  have hcompare : Std.TransCmp m.compareMembers := { eq_swap := ht.eq_swap, isLE_trans := ht.isLE_trans }
  refine ⟨hf h, fun taking kind => ?_, fun finished kind => ?_, fun kind x hx => ?_,
    fun finished kind hkind => ?_, hn.memberLists_perm⟩
  · rw [ClassNode.Staffed, if_pos taking] at hn
    rw [membersOf, hn, membersOf_membersByKind]
  · rw [ClassNode.Staffed, if_neg finished] at hn
    have hsorted : StablySorted m.compareMembers _ _ := stablySorted_membersOf hn kind
    exact ⟨hsorted.ascending hcompare, hsorted⟩
  · have hin := (hn.membersOf_perm kind).mem_iff.1 hx
    simpa using (List.mem_filter.1 hin).2
  · have hhas : (m.classAt h).hasKind kind = true := hn.hasKind finished hkind
    exact ⟨hhas, mem_memberLists hhas⟩

/-- After any run under a total preorder, violations and refusals included. -/
theorem run_arranged (policy : Policy) (preorder : Std.TransCmp policy.compare) (ops : List Operation) :
    let (m, replies) := (empty policy).run ops
    ∀ h, Arranged m (Operation.added ops replies h) (m.classAt h) := by
  have hmoves := run_moves (empty policy) ops
  have hstaffed : ((empty policy).run ops).1.Staffed fun h => [] ++ Operation.added ops ((empty policy).run ops).2 h :=
    (staffed_empty policy).run ops
  exact fun h => hstaffed.arranged (hmoves.policy ▸ preorder) (hmoves.frozenAscending preorder) h

/-- By name alone and backwards, so that elements of one name compare equal. -/
def backwards : Policy where
  name := "reverse"
  compare a b := Ord.compare b.name a.name

/-- `A` has its members finished before the others, and then fails to take another member and an interface. -/
def namesakes : List Operation :=
  let named (id name : String) (kind : ElementKind) : Element :=
    { attributes := { id := id, name := name, kind := kind } }
  [.addClass (named "A" "A" .classType) [], .addClass (named "B" "B" .classType) [],
    .addMember 0 (named "1" "f" .methods), .addMember 0 (named "2" "g" .methods), .addMember 0 (named "3" "f" .methods),
    .addMember 0 (named "4" "x" .fields), .addMember 1 (named "5" "y" .fields), .addRelation 0 .superClass 1,
    .addRelation 0 .innerClass 1, .finishMembers 0, .addMember 0 (named "6" "h" .methods), .finishAllRelations,
    .addClass (named "C" "C" .interface) [], .addSuperInterface 0 2, .addMember 2 (named "7" "f" .methods)]

/-- Methods of one name stay in the order in which they came, and what `A` has none of has an empty list. -/
theorem run_arranged_namesakes :
    let (m, replies) := (empty backwards).run namesakes
    Std.TransCmp backwards.compare ∧ replies.countP Reply.isViolation = 2 ∧
      (m.classAt 0).memberLists.map (fun l => (l.1, l.2.map (·.id))) =
        [(.extends, []), (.implements, []), (.constants, []), (.fields, ["4"]), (.properties, []), (.constructors, []),
         (.methods, ["2", "1", "3"])] ∧
      ∀ h, Arranged m (Operation.added namesakes replies h) (m.classAt h) :=
  have preorder : Std.TransCmp backwards.compare :=
    inferInstanceAs (Std.TransCmp fun a b : Attributes => compareOn (·.name) b a)
  ⟨preorder, by decide +kernel, by decide +kernel, run_arranged backwards preorder namesakes⟩

end ClassModel

end ClassAtlas
