import ClassAtlas.Json.Record
import Mathlib.Data.List.Nodup

/-! What a record gathers from its members. The order in which they come makes no difference (`Gathers.perm`), nor do
members that are no fields, wherever they stand (`Gathers.insert`), nor does a field that is given its default
(`Gathers.remove`). -/

namespace ClassAtlas

namespace Reader

variable {α β : Type} {x : Except Fault α} {b : β}

theorem bind_eq_ok_iff {f : α → Except Fault β} : (x >>= f) = .ok b ↔ ∃ a, x = .ok a ∧ f a = .ok b := by
  cases x <;> simp [bind, Except.bind]

theorem map_eq_ok_iff {f : α → β} : x.map f = .ok b ↔ ∃ a, x = .ok a ∧ f a = b := by
  cases x <;> simp [Except.map]

end Reader

open Reader

section Fields

variable {F : Type} {shape : Shape F}

/-- The document is the default of a field. -/
def Shape.Default (shape : Shape F) (key : String) (d : Document) : Prop :=
  ∃ f v, shape.field? key = some f ∧ shape.absent f = some v ∧ shape.read f d = .ok v

theorem Shape.key_of_field? {key : String} {f : F} (h : shape.field? key = some f) : shape.key f = key := by
  simpa using List.find?_some h

theorem Shape.field?_eq_none_iff {key : String} : shape.field? key = none ↔ key ∉ shape.fields.map shape.key := by
  rw [Shape.field?, List.find?_eq_none]
  simp

/-- Fields are found by their keys if these are distinct. -/
theorem Shape.field?_key (hnodup : (shape.fields.map shape.key).Nodup) {f : F} (hf : f ∈ shape.fields) :
    shape.field? (shape.key f) = some f := by
  cases hfield : shape.field? (shape.key f) with
  | none => exact absurd (List.mem_map_of_mem hf) (field?_eq_none_iff.1 hfield)
  | some g =>
    have hg : g ∈ shape.fields := List.mem_of_find?_eq_some hfield
    rw [List.inj_on_of_nodup_map hnodup hg hf (key_of_field? hfield)]

variable [DecidableEq F] {d : Draft shape} {f g : F} {v : shape.Value f} {w : shape.Value g}

theorem Draft.put_comm (h : f ≠ g) : (d.put f v).put g w = (d.put g w).put f v := by
  funext i
  by_cases hf : i = f
  · subst hf
    simp [Draft.put, h]
  · by_cases hg : i = g
    · subst hg
      simp [Draft.put, hf]
    · simp [Draft.put, hf, hg]

theorem Draft.put_of_ne (h : g ≠ f) : d.put f v g = d g := by simp [Draft.put, h]

theorem Draft.put_self : d.put f v f = some v := by simp [Draft.put]

/-- A field that is given its default might as well be left out. -/
theorem Draft.take_put (hd : d f = none) (hv : shape.absent f = some v) : (d.put f v).take = d.take := by
  funext g
  by_cases h : g = f
  · subst h
    simp [Draft.take, Draft.put_self, hd, hv]
  · simp [Draft.take, Draft.put_of_ne h]

end Fields

/-- From these members a record has gathered a draft, on top of another one, and has kept others. -/
inductive Gathers {F : Type} [DecidableEq F] (shape : Shape F) (passes : Document → Bool) :
    List (Option String × Document) → Draft shape → Draft shape → List (Option String × Document) → Prop
  | nil (d : Draft shape) : Gathers shape passes [] d d []
  | field {key : String} {value : Document} {f : F} {v : shape.Value f} {ms os : List (Option String × Document)}
      {d e : Draft shape} (known : shape.field? key = some f) (fresh : d f = none) (read : shape.read f value = .ok v)
      (more : Gathers shape passes ms (d.put f v) e os) : Gathers shape passes ((some key, value) :: ms) d e os
  | other {key : String} {value : Document} {ms os : List (Option String × Document)} {d e : Draft shape}
      (unknown : shape.field? key = none) (pass : passes value = true) (more : Gathers shape passes ms d e os) :
      Gathers shape passes ((some key, value) :: ms) d e ((some key, value) :: os)

namespace Gathers

variable {F : Type} [DecidableEq F] {shape : Shape F} {passes : Document → Bool} {key : String}
  {value value' : Document}
  {ms ns os : List (Option String × Document)} {d e : Draft shape} {f : F} {v : shape.Value f}

theorem gather_eq_ok_iff : shape.gather passes ms d = .ok (e, os) ↔ Gathers shape passes ms d e os := by
  constructor
  · intro h
    induction ms generalizing d os with
    | nil =>
      cases h
      exact .nil _
    | cons m ms ih =>
      obtain ⟨name, value⟩ := m
      cases name with
      | none => cases h
      | some key =>
        unfold Shape.gather at h
        split at h
        · rename_i f known
          split at h
          · cases h
          · rename_i fresh
            obtain ⟨v, hread, h⟩ := bind_eq_ok_iff.1 h
            exact .field known (Option.not_isSome_iff_eq_none.1 fresh) hread (ih h)
        · rename_i unknown
          split at h
          · rename_i pass
            obtain ⟨r, hmore, h⟩ := bind_eq_ok_iff.1 h
            cases h
            exact .other unknown pass (ih hmore)
          · cases h
  · intro h
    induction h with
    | nil => rfl
    | field known fresh read more ih => simp only [Shape.gather, known, fresh, read]; exact ih
    | other unknown pass more ih => simp only [Shape.gather, unknown, pass, ih]; rfl

theorem append_iff : Gathers shape passes (ms ++ ns) d e os ↔
    ∃ c os₁ os₂, Gathers shape passes ms d c os₁ ∧ Gathers shape passes ns c e os₂ ∧ os = os₁ ++ os₂ := by
  constructor
  · intro h
    induction ms generalizing d os with
    | nil => exact ⟨d, [], os, .nil d, h, rfl⟩
    | cons m ms ih =>
      cases h with
      | field known fresh read more =>
        obtain ⟨c, os₁, os₂, h₁, h₂, rfl⟩ := ih more
        exact ⟨c, os₁, os₂, .field known fresh read h₁, h₂, rfl⟩
      | other unknown pass more =>
        obtain ⟨c, os₁, os₂, h₁, h₂, rfl⟩ := ih more
        exact ⟨c, _, os₂, .other unknown pass h₁, h₂, rfl⟩
  · rintro ⟨c, os₁, os₂, h₁, h₂, rfl⟩
    induction h₁ with
    | nil => exact h₂
    | field known fresh read more ih => exact .field known fresh read (ih h₂)
    | other unknown pass more ih => exact .other unknown pass (ih h₂)

/-- Members in another order. -/
theorem perm (h : Gathers shape passes ms d e os) (hperm : ms.Perm ns) :
    ∃ os', Gathers shape passes ns d e os' ∧ os.Perm os' := by
  induction hperm generalizing d os with
  | nil => exact ⟨os, h, .refl os⟩
  | cons m _ ih =>
    cases h with
    | field known fresh read more =>
      obtain ⟨os', h', hos⟩ := ih more
      exact ⟨os', .field known fresh read h', hos⟩
    | other unknown pass more =>
      obtain ⟨os', h', hos⟩ := ih more
      exact ⟨_, .other unknown pass h', hos.cons _⟩
  | swap m n ms =>
    cases h with
    | field known fresh read more =>
      cases more with
      | field known' fresh' read' more =>
        -- a field that is fresh after another one was another one
        rename_i f v _ _ g w
        have hne : g ≠ f := by
          rintro rfl
          rw [Draft.put_self] at fresh'
          cases fresh'
        rw [Draft.put_of_ne hne] at fresh'
        rw [Draft.put_comm hne.symm] at more
        exact ⟨os, .field known' fresh' read' (.field known (by rwa [Draft.put_of_ne hne.symm]) read more), .refl os⟩
      | other unknown pass more => exact ⟨_, .other unknown pass (.field known fresh read more), .refl _⟩
    | other unknown pass more =>
      cases more with
      | field known fresh read more => exact ⟨_, .field known fresh read (.other unknown pass more), .refl _⟩
      | other unknown' pass' more => exact ⟨_, .other unknown' pass' (.other unknown pass more), .swap ..⟩
  | trans _ _ ih₁ ih₂ =>
    obtain ⟨os₁, h₁, hos₁⟩ := ih₁ h
    obtain ⟨os₂, h₂, hos₂⟩ := ih₂ h₁
    exact ⟨os₂, h₂, hos₁.trans hos₂⟩

/-- One more member that is no field. -/
theorem insert (h : Gathers shape passes (ms ++ ns) d e os) (unknown : shape.field? key = none)
    (pass : passes value = true) : ∃ os₁ os₂, os = os₁ ++ os₂ ∧
      Gathers shape passes (ms ++ (some key, value) :: ns) d e (os₁ ++ (some key, value) :: os₂) := by
  obtain ⟨c, os₁, os₂, h₁, h₂, rfl⟩ := append_iff.1 h
  exact ⟨os₁, os₂, rfl, append_iff.2 ⟨c, os₁, _, h₁, .other unknown pass h₂, rfl⟩⟩

/-- One member less of those that are no fields. -/
theorem drop (h : Gathers shape passes (ms ++ (some key, value) :: ns) d e os) (unknown : shape.field? key = none) :
    ∃ os₁ os₂, os = os₁ ++ (some key, value) :: os₂ ∧ Gathers shape passes (ms ++ ns) d e (os₁ ++ os₂) := by
  obtain ⟨c, os₁, os₂, h₁, h₂, rfl⟩ := append_iff.1 h
  cases h₂ with
  | field known =>
    rw [unknown] at known
    cases known
  | other _ _ more => exact ⟨os₁, _, rfl, append_iff.2 ⟨c, os₁, _, h₁, more, rfl⟩⟩

/-- What was gathered on top of a field can be gathered without it. -/
theorem forget (h : Gathers shape passes ms (d.put f v) e os) (hd : d f = none) :
    ∃ e', Gathers shape passes ms d e' os ∧ e' f = none ∧ e = e'.put f v := by
  generalize hput : d.put f v = d' at h
  induction h generalizing d with
  | nil => exact ⟨d, .nil d, hd, hput.symm⟩
  | field known fresh read more ih =>
    subst hput
    rename_i g w _ _ _
    have hne : g ≠ f := by
      rintro rfl
      rw [Draft.put_self] at fresh
      cases fresh
    obtain ⟨e', h', he', rfl⟩ := ih (d := d.put g w) (by rwa [Draft.put_of_ne hne.symm]) (Draft.put_comm hne)
    exact ⟨e', .field known (by rwa [Draft.put_of_ne hne] at fresh) read h', he', rfl⟩
  | other unknown pass more ih =>
    obtain ⟨e', h', he', rfl⟩ := ih hd hput
    exact ⟨e', .other unknown pass h', he', rfl⟩

/-- A field less that was given its default. -/
theorem remove (h : Gathers shape passes (ms ++ (some key, value) :: ns) d e os) (hdefault : shape.Default key value) :
    ∃ e', Gathers shape passes (ms ++ ns) d e' os ∧ e'.take = e.take := by
  obtain ⟨f, v, known, absent, read⟩ := hdefault
  obtain ⟨c, os₁, os₂, h₁, h₂, rfl⟩ := append_iff.1 h
  cases h₂ with
  | other unknown =>
    rw [known] at unknown
    cases unknown
  | field known' fresh read' more =>
    obtain rfl := Option.some.inj (known.symm.trans known')
    obtain rfl := Except.ok.inj (read.symm.trans read')
    obtain ⟨e', h', he', rfl⟩ := more.forget fresh
    exact ⟨e', append_iff.2 ⟨c, os₁, os₂, h₁, h', rfl⟩, (Draft.take_put he' absent).symm⟩

/-- A field whose value is read as before. -/
theorem replace (h : Gathers shape passes (ms ++ (some key, value) :: ns) d e os) (known : shape.field? key = some f)
    (hread : ∀ v, shape.read f value = .ok v → shape.read f value' = .ok v) :
    Gathers shape passes (ms ++ (some key, value') :: ns) d e os := by
  obtain ⟨c, os₁, os₂, h₁, h₂, rfl⟩ := append_iff.1 h
  cases h₂ with
  | other unknown =>
    rw [known] at unknown
    cases unknown
  | field known' fresh read more =>
    obtain rfl := Option.some.inj (known.symm.trans known')
    exact append_iff.2 ⟨c, os₁, os₂, h₁, .field known fresh (hread _ read) more, rfl⟩

/-- No syntax error within, where neither fields nor others have one. -/
theorem wellFormed (h : Gathers shape passes ms d e os)
    (hpasses : ∀ value, passes value = true → value.wellFormed = true)
    (hread : ∀ f value v, shape.read f value = .ok v → value.wellFormed = true) :
    Document.wellFormedMembers ms = true := by
  induction h with
  | nil => rfl
  | field known fresh read more ih => simp only [Document.wellFormedMembers, hread _ _ _ read, ih, Bool.and_self]
  | other unknown pass more ih => simp only [Document.wellFormedMembers, hpasses _ pass, ih, Bool.and_self]

end Gathers

section Fill

variable {F : Type} [DecidableEq F] {shape : Shape F} {fields : List F} {items more : List Document}
  {value value' : Document} {d e : Draft shape}

/-- In an array of fields, an item whose value is read as before. -/
theorem Shape.fill_replace (h : shape.fill fields (items ++ value :: more) d = .ok e)
    (hread : ∀ f, fields[items.length]? = some f → ∀ v, shape.read f value = .ok v → shape.read f value' = .ok v) :
    shape.fill fields (items ++ value' :: more) d = .ok e := by
  induction items generalizing fields d with
  | nil =>
    cases fields with
    | nil => cases h
    | cons f fields =>
      obtain ⟨v, hvalue, h⟩ := bind_eq_ok_iff.1 h
      exact bind_eq_ok_iff.2 ⟨v, hread f rfl v hvalue, h⟩
  | cons item items ih =>
    cases fields with
    | nil => cases h
    | cons f fields =>
      obtain ⟨v, hitem, h⟩ := bind_eq_ok_iff.1 h
      exact bind_eq_ok_iff.2 ⟨v, hitem, ih h hread⟩

theorem Shape.wellFormed_of_fill (h : shape.fill fields items d = .ok e)
    (hread : ∀ f value v, shape.read f value = .ok v → value.wellFormed = true) :
    Document.wellFormedItems items = true := by
  induction items generalizing fields d with
  | nil => rfl
  | cons item items ih =>
    cases fields with
    | nil => cases h
    | cons f fields =>
      obtain ⟨v, hitem, h⟩ := bind_eq_ok_iff.1 h
      simp only [Document.wellFormedItems, hread _ _ _ hitem, ih h, Bool.and_self]

end Fill

end ClassAtlas
