import ClassAtlas.Proofs.Finishing
import ClassAtlas.Proofs.Reading

/-! What a class is besides its place and its relations. Relating classes keeps it (`resembles_connect`), and finishing
puts members in order and moves the lifecycle on (`turns_finishEach`). -/

namespace ClassAtlas

open ClassModel

/-- What a class is besides its place and its relations. -/
structure Content where
  element : Element
  typeParameters : List TypeRef
  members : EnumMap ElementKind (Option (List Element))
  lifecycle : Lifecycle

def ClassNode.content (n : ClassNode) : Content := ⟨n.element, n.typeParameters, n.members, n.lifecycle⟩

/-- Members by kind, in the order in which they came. -/
def membersByKind (xs : List Element) : EnumMap ElementKind (Option (List Element)) :=
  .ofFn fun kind =>
    let list := xs.filter fun x => x.kind = kind
    if list.isEmpty then none else some list

/-- A class that has its members but is not finished. -/
def Content.unfinished (element : Element) (typeParameters : List TypeRef) (members : List Element) : Content :=
  ⟨element, typeParameters, membersByKind members, .building⟩

def Content.finishMembers (policy : Policy) (c : Content) : Content :=
  { c with members := ClassNode.sortedMembers policy c.members, lifecycle := .membersFinalized }

def Content.finishRelations (c : Content) : Content := { c with lifecycle := .relationsFinalized }

theorem membersByKind_append_singleton (xs : List Element) (x : Element) : membersByKind (xs ++ [x]) =
    (membersByKind xs).modify x.kind fun list => some (list.getD [] ++ [x]) := by
  apply EnumMap.ext_get
  intro kind
  rw [EnumMap.get_modify, membersByKind, membersByKind, EnumMap.get_ofFn, EnumMap.get_ofFn, EnumMap.get_ofFn,
    List.filter_append]
  by_cases hk : kind = x.kind
  · subst hk
    cases hxs : xs.filter fun y => y.kind = x.kind <;> simp
  · simp [hk, Ne.symm hk]

namespace ClassModel

variable {m m' : ClassModel} {s t h i : Handle}

/-- The elements and type parameters that the classes were registered with. -/
def heads (m : ClassModel) : List (Element × List TypeRef) := m.classes.map fun n => (n.element, n.typeParameters)

theorem heads_extend (e : Element) (ps : List TypeRef) : (m.extend e ps).heads = m.heads ++ [(e, ps)] := by
  simp [heads, extend, register]

/-- Changes under which every class keeps what it is. -/
structure Resembles (m m' : ClassModel) : Prop where
  policy : m'.policy = m.policy
  handle? : m'.handle? = m.handle?
  size : m'.size = m.size
  content : ∀ i, (m'.classAt i).content = (m.classAt i).content

theorem Resembles.heads (hr : Resembles m m') : m'.heads = m.heads := by
  rw [ClassModel.heads, ClassModel.heads, classes_eq, classes_eq, hr.size, List.map_map, List.map_map]
  refine List.map_congr_left fun i _ => ?_
  have := hr.content i
  simp only [ClassNode.content, Content.mk.injEq] at this
  simp [this]

theorem Resembles.trans {m1 : ClassModel} (h : Resembles m m1) (h' : Resembles m1 m') : Resembles m m' :=
  ⟨h'.policy.trans h.policy, h'.handle?.trans h.handle?, h'.size.trans h.size,
    fun i => (h'.content i).trans (h.content i)⟩

theorem content_modify (f : ClassNode → ClassNode) (hh : h < m.size) (i : Handle) :
    ((m.modify h f).classAt i).content = if i = h then (f (m.classAt h)).content else (m.classAt i).content := by
  rw [classAt_modify hh]
  split <;> rfl

theorem resembles_modify {f : ClassNode → ClassNode} (hf : (f (m.classAt h)).content = (m.classAt h).content) :
    Resembles m (m.modify h f) := by
  refine ⟨rfl, rfl, size_modify f, fun i => ?_⟩
  rcases Nat.lt_or_ge h m.size with hh | hh
  · rw [content_modify f hh, hf]
    split
    · rename_i e
      rw [e]
    · rfl
  · rw [modify, List.modify_eq_self hh]

theorem resembles_record (owner : Handle) (d : Direction) (r : Relation) (t : Handle) :
    Resembles m (m.record owner d r t).1 := by
  have hkept : ((m.classAt owner).record d r t).1.content = (m.classAt owner).content := by
    obtain ⟨cells, ledgers, e⟩ := ClassNode.record_frame (m.classAt owner) d r t
    rw [e]
    rfl
  exact resembles_modify hkept

theorem Resembles.refl (m : ClassModel) : Resembles m m := ⟨rfl, rfl, rfl, fun _ => rfl⟩

theorem resembles_link (m : ClassModel) (l : Link) : Resembles m (m.link l).1 := by
  rcases link_cases m l with ⟨-, e⟩ | ⟨-, e⟩ <;> rw [e]
  · exact resembles_record ..
  · exact (resembles_record ..).trans (resembles_record ..)

theorem resembles_connect (m : ClassModel) (s : Handle) (r : Relation) (t : Handle) :
    Resembles m (m.connect s r t).1 := by
  rw [connect_eq]
  split
  · exact Resembles.refl m
  · exact resembles_link m ⟨s, r, t, m.listing s r⟩

/-- A class that changes in what it is, while the others stay as they are. -/
structure Turns (g : Content → Content) (hs : List Handle) (m m' : ClassModel) : Prop where
  policy : m'.policy = m.policy
  size : m'.size = m.size
  content : ∀ i, (m'.classAt i).content = if i ∈ hs then g (m.classAt i).content else (m.classAt i).content

/-- Classes finished one after the other change as each of them does. -/
theorem turns_finishEach {finish : ClassModel → Handle → Except Refusal ClassModel} {policy : Policy}
    {g : Content → Content} (hstep : ∀ {m h m'}, m.policy = policy → finish m h = .ok m' → Turns g [h] m m')
    {hs : List Handle} (hnodup : hs.Nodup) (hpolicy : m.policy = policy) (he : m.finishEach finish hs = (m', none)) :
    Turns g hs m m' := by
  induction hs generalizing m with
  | nil =>
    obtain ⟨rfl, -⟩ := Prod.mk.inj he
    exact ⟨rfl, rfl, fun i => by simp⟩
  | cons h hs ih =>
    rw [List.nodup_cons] at hnodup
    rw [finishEach] at he
    cases hfin : finish m h with
    | error r =>
      rw [hfin] at he
      cases he
    | ok m1 =>
      rw [hfin] at he
      have h1 := hstep hpolicy hfin
      have h2 := ih hnodup.2 (h1.policy.trans hpolicy) he
      refine ⟨h2.policy.trans h1.policy, h2.size.trans h1.size, fun i => ?_⟩
      rw [h2.content, h1.content]
      by_cases hih : i = h
      · subst hih
        simp [hnodup.1]
      · simp [hih]

theorem turns_modify {g : Content → Content} {f : ClassNode → ClassNode} (hh : h < m.size)
    (hf : ∀ n, (f n).content = g n.content) : Turns g [h] m (m.modify h f) := by
  refine ⟨rfl, size_modify f, fun i => ?_⟩
  rw [content_modify f hh, hf]
  by_cases hi : i = h <;> simp [hi]

theorem turns_finishMembers {policy : Policy} (hpolicy : m.policy = policy) (hfin : m.finishMembers h = .ok m') :
    Turns (Content.finishMembers policy) [h] m m' := by
  obtain ⟨hh, -, rfl⟩ := finishMembers_eq_ok_iff.1 hfin
  have hturn : Turns (Content.finishMembers policy) [h] m
      (m.modify h fun n => n.finishMembers m.policy m.sortHandles) :=
    turns_modify hh fun n => by rw [hpolicy]; rfl
  exact ⟨hturn.policy, hturn.size, hturn.content⟩

theorem turns_finishRelations (hfin : m.finishRelations h = .ok m') : Turns Content.finishRelations [h] m m' := by
  obtain ⟨hh, -, -, rfl⟩ := finishRelations_eq_ok_iff.1 hfin
  exact turns_modify hh fun n => rfl

/-- A new class has no members, like the blank class. -/
theorem members_extend (e : Element) (ps : List TypeRef) (i : Handle) :
    ((m.extend e ps).classAt i).members = (m.classAt i).members := by
  rcases Nat.lt_trichotomy i m.size with hi | rfl | hi
  · rw [classAt_extend e ps hi]
  · rw [classAt_extend_size, classAt_of_size_le (Nat.le_refl _)]
  · rw [classAt_of_size_le (Nat.le_of_lt hi), classAt_of_size_le (by rw [size_extend]; exact hi)]

end ClassModel

end ClassAtlas
