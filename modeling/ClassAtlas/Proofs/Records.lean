import ClassAtlas.Json.Record
import ClassAtlas.Proofs.Spelling

/-! Records are read back as they were written. A record may leave out fields that have their defaults, and it may
stand among members of another one, which then finds those kept as they were (`Writes.draft`, `Writes.draftKeeping`,
`Writes.ofKept`). -/

namespace ClassAtlas

namespace Json

theorem documents_eq_map (js : List Json) : documents js = js.map document := by
  induction js with
  | nil => rfl
  | cons j js ih => rw [documents, ih, List.map_cons]

theorem memberDocuments_eq_map (ms : List (String × Json)) :
    memberDocuments ms = ms.map fun m => (some m.1, m.2.document) := by
  induction ms with
  | nil => rfl
  | cons m ms ih => rw [memberDocuments, ih, List.map_cons]

/-- What an array holds nests less deep than the array itself. -/
theorem depth_lt_of_mem_items {j : Json} {js : List Json} (h : j ∈ js) : j.depth < (array js).depth := by
  rw [depth, Nat.lt_succ_iff]
  induction js with
  | nil => cases h
  | cons k js ih =>
    rw [depthItems]
    rcases List.mem_cons.1 h with rfl | h
    · exact Nat.le_max_left ..
    · exact Nat.le_trans (ih h) (Nat.le_max_right ..)

theorem depth_lt_of_mem_members {key : String} {j : Json} {ms : List (String × Json)} (h : (key, j) ∈ ms) :
    j.depth < (object ms).depth := by
  rw [depth, Nat.lt_succ_iff]
  induction ms with
  | nil => cases h
  | cons m ms ih =>
    rw [depthMembers]
    rcases List.mem_cons.1 h with rfl | h
    · exact Nat.le_max_left ..
    · exact Nat.le_trans (ih h) (Nat.le_max_right ..)

end Json

namespace Reader

variable {α : Type}

theorem each_map {read : Reader α} {write : α → Json} {as : List α} (h : ∀ a ∈ as, read (write a).document = .ok a) :
    each read (as.map fun a => (write a).document) = .ok as := by
  induction as with
  | nil => rfl
  | cons a as ih =>
    have htail := ih fun b hb => h b (List.mem_cons_of_mem a hb)
    rw [List.map_cons, each, h a (List.mem_cons_self ..), htail]
    rfl

theorem list_document {read : Reader α} {write : α → Json} {as : List α}
    (h : ∀ a ∈ as, read (write a).document = .ok a) : list read (Json.ofList write as).document = .ok as := by
  rw [Json.ofList, Json.document, Json.documents_eq_map, List.map_map, list]
  change (each read (as.map fun a => (write a).document) >>= _) = _
  rw [each_map h]
  rfl

/-- A value without null for its text is read back as an optional one. -/
theorem optional_document {read : Reader α} {write : α → Json} {o : Option α}
    (h : ∀ a, o = some a → read (write a).document = .ok a ∧ (write a).document ≠ .null) :
    optional read (Json.ofOption write o).document = .ok o := by
  cases o with
  | none => rfl
  | some a =>
    obtain ⟨hread, hnull⟩ := h a rfl
    rw [Json.ofOption, optional, hread]
    · rfl
    · exact hnull

/-- Variants are found by their names if these are distinct. -/
theorem pick_variantsOf {κ : Type} [DecidableEq κ] [Enumeration κ] {name : κ → String}
    (hnodup : ((every κ).map name).Nodup) (k : κ) : pick (variantsOf κ name) (name k) = .ok k := by
  have hlookup : ∀ ks : List κ, (ks.map name).Nodup → k ∈ ks →
      (ks.map fun k => (name k, k)).lookup (name k) = some k := by
    intro ks hnodup hk
    induction ks with
    | nil => cases hk
    | cons a ks ih =>
      rw [List.map_cons, List.nodup_cons] at hnodup
      rw [List.map_cons, List.lookup_cons]
      rcases List.mem_cons.1 hk with rfl | hk
      · simp
      · have hne : name k ≠ name a := fun e => hnodup.1 (e ▸ List.mem_map_of_mem hk)
        rw [beq_false_of_ne hne]
        exact ih hnodup.2 hk
  rw [pick, variantsOf, hlookup _ hnodup (mem_every k)]

end Reader

/-- The members that fields are written as. -/
def Shape.entries {F : Type} (shape : Shape F) (w : F → Json) (fs : List F) : List (String × Json) :=
  fs.map fun f => (shape.key f, w f)

/-- What a field is written as nests less deep than the record. -/
theorem Shape.depth_lt_of_mem {F : Type} {shape : Shape F} {w : F → Json} {fs : List F} {f : F} (hf : f ∈ fs) :
    (w f).depth < (Json.object (shape.entries w fs)).depth :=
  Json.depth_lt_of_mem_members (List.mem_map_of_mem hf)

section Records

variable {F : Type} [DecidableEq F] {shape : Shape F}

/-- The draft with more fields filled in. -/
def Draft.putAll (d : Draft shape) (fs : List F) (v : (f : F) → shape.Value f) : Draft shape :=
  fun f => if f ∈ fs then some (v f) else d f

theorem Draft.putAll_put (d : Draft shape) (f : F) (fs : List F) (v : (f : F) → shape.Value f) :
    (d.put f (v f)).putAll fs v = d.putAll (f :: fs) v := by
  funext g
  by_cases hg : g ∈ fs
  · simp [putAll, hg]
  · by_cases hgf : g = f
    · subst hgf
      simp [putAll, put, hg]
    · simp [putAll, put, hg, hgf]

/-- The fields `fs` are written as `w` says, and what comes back is `v`: a field that is left out has its default. -/
structure Writes (shape : Shape F) (fs : List F) (w : F → Json) (v : (f : F) → shape.Value f) : Prop where
  nodup : fs.Nodup
  key : ∀ f ∈ fs, shape.field? (shape.key f) = some f
  read : ∀ f ∈ fs, shape.read f (w f).document = .ok (v f)
  absent : ∀ f, f ∉ fs → shape.absent f = some (v f)

namespace Writes

variable {fs : List F} {w : F → Json} {v : (f : F) → shape.Value f} {kept : List (String × Json)}
  {passes : Document → Bool}

/-- Fields that are read into a draft without them. -/
theorem gather (hw : Writes shape fs w v) {gs : List F} (hgs : gs ⊆ fs) (hnodup : gs.Nodup) {d : Draft shape}
    (hd : ∀ f ∈ gs, d f = none) :
    shape.gather passes (Json.memberDocuments (shape.entries w gs)) d = .ok (d.putAll gs v, []) := by
  induction gs generalizing d with
  | nil => rfl
  | cons f gs ih =>
    rw [List.nodup_cons] at hnodup
    have hf := hgs (List.mem_cons_self ..)
    have htail := ih (fun g hg => hgs (List.mem_cons_of_mem f hg)) hnodup.2 (d := d.put f (v f)) (by
      intro g hg
      have hne : g ≠ f := fun e => hnodup.1 (e ▸ hg)
      rw [Draft.put, dif_neg hne]
      exact hd g (List.mem_cons_of_mem f hg))
    rw [Draft.putAll_put] at htail
    simp only [Shape.entries, List.map_cons, Json.memberDocuments, Shape.gather, hw.key f hf,
      hd f (List.mem_cons_self ..), hw.read f hf]
    exact htail

/-- Members that are no fields are kept in their order. -/
theorem gather_kept (hkept : ∀ m ∈ kept, shape.field? m.1 = none ∧ passes m.2.document = true) {d d' : Draft shape}
    {members others : List (Option String × Document)} (h : shape.gather passes members d = .ok (d', others)) :
    shape.gather passes (Json.memberDocuments kept ++ members) d = .ok (d', Json.memberDocuments kept ++ others) := by
  induction kept with
  | nil => exact h
  | cons m kept ih =>
    obtain ⟨hfield, hpasses⟩ := hkept m (List.mem_cons_self ..)
    have htail := ih fun k hk => hkept k (List.mem_cons_of_mem m hk)
    simp only [Json.memberDocuments, List.cons_append, Shape.gather, hfield, hpasses, htail, if_true]
    rfl

theorem take (hw : Writes shape fs w v) (f : F) : (Draft.empty.putAll fs v : Draft shape).take f = .ok (v f) := by
  by_cases hf : f ∈ fs
  · simp [Draft.take, Draft.putAll, hf]
  · simp [Draft.take, Draft.putAll, hf, Draft.empty, hw.absent f hf]

theorem gather_empty (hw : Writes shape fs w v) :
    shape.gather passes (Json.memberDocuments (shape.entries w fs)) .empty = .ok (Draft.empty.putAll fs v, []) :=
  hw.gather (List.Subset.refl fs) hw.nodup fun _ _ => rfl

theorem draft (hw : Writes shape fs w v) :
    ∃ d, shape.draft (Json.object (shape.entries w fs)).document = .ok d ∧ ∀ f, d.take f = .ok (v f) := by
  refine ⟨_, ?_, hw.take⟩
  rw [Json.document, Shape.draft, hw.gather_empty]
  rfl

theorem ofKept (hw : Writes shape fs w v) :
    ∃ d, shape.ofKept (Json.memberDocuments (shape.entries w fs)) = .ok d ∧ ∀ f, d.take f = .ok (v f) := by
  refine ⟨_, ?_, hw.take⟩
  rw [Shape.ofKept, hw.gather_empty]
  rfl

theorem draftKeeping (hw : Writes shape fs w v)
    (hkept : ∀ m ∈ kept, shape.field? m.1 = none ∧ m.2.document.sound = true) :
    ∃ d, shape.draftKeeping (Json.object (kept ++ shape.entries w fs)).document =
      .ok (d, Json.memberDocuments kept) ∧ ∀ f, d.take f = .ok (v f) := by
  refine ⟨_, ?_, hw.take⟩
  have happend : Json.memberDocuments (kept ++ shape.entries w fs) =
      Json.memberDocuments kept ++ Json.memberDocuments (shape.entries w fs) := by
    simp only [Json.memberDocuments_eq_map, List.map_append]
  rw [Json.document, Shape.draftKeeping, happend, gather_kept hkept hw.gather_empty, List.append_nil]
  rfl

end Writes

end Records

end ClassAtlas
