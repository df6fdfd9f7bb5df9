import ClassAtlas.Proofs.Presentable

/-! Whatever is read comes from a document without syntax errors, also in the parts that nobody reads (`checks`). -/

namespace ClassAtlas

open Reader

namespace Document

mutual

theorem wellFormed_of_sound : ∀ d : Document, d.sound = true → d.wellFormed = true
  | .null, _ | .bool _, _ | .number _, _ | .string _, _ => rfl
  | .array items complete, h => by
    rw [sound, Bool.and_eq_true] at h
    rw [wellFormed, wellFormedItems_of_sound items h.1, h.2]
    rfl
  | .object members complete, h => by
    rw [sound, Bool.and_eq_true] at h
    rw [wellFormed, wellFormedMembers_of_sound members h.1, h.2]
    rfl
  | .deep _, h | .broken, h => by cases h

theorem wellFormedItems_of_sound : ∀ items : List Document, soundItems items = true → wellFormedItems items = true
  | [], _ => rfl
  | item :: items, h => by
    rw [soundItems, Bool.and_eq_true] at h
    rw [wellFormedItems, wellFormed_of_sound item h.1, wellFormedItems_of_sound items h.2]
    rfl

theorem wellFormedMembers_of_sound : ∀ members : List (Option String × Document),
    soundMembers members = true → wellFormedMembers members = true
  | [], _ => rfl
  | (_, value) :: members, h => by
    rw [soundMembers, Bool.and_eq_true, Bool.and_eq_true] at h
    rw [wellFormedMembers, wellFormed_of_sound value h.1.2, wellFormedMembers_of_sound members h.2]
    rfl

end

end Document

namespace Reader

variable {α : Type} {read : Reader α}

/-- Nothing is read from a document with a syntax error in it. -/
def Checks (read : Reader α) : Prop := ∀ d a, read d = .ok a → d.wellFormed = true

theorem checks_string : Checks string := by
  intro d a h
  cases d with
  | string s => rfl
  | _ => cases h

theorem checks_variant (variants : List (String × α)) : Checks (variant variants) := by
  intro d a h
  unfold variant at h
  split at h
  · rfl
  · obtain ⟨b, -, h⟩ := bind_eq_ok_iff.1 h
    split at h
    · rfl
    · cases h
  · cases h

theorem Checks.each (h : read.Checks) {items : List Document} {as : List α} (heach : each read items = .ok as) :
    Document.wellFormedItems items = true := by
  induction items generalizing as with
  | nil => rfl
  | cons item items ih =>
    obtain ⟨a, ha, heach⟩ := bind_eq_ok_iff.1 heach
    obtain ⟨bs, hbs, -⟩ := bind_eq_ok_iff.1 heach
    rw [Document.wellFormedItems, h item a ha, ih hbs]
    rfl

theorem Checks.list (h : read.Checks) : (list read).Checks := by
  intro d as has
  cases d with
  | array items complete =>
    obtain ⟨bs, hbs, has⟩ := bind_eq_ok_iff.1 has
    cases complete with
    | false => cases has
    | true => simp only [Document.wellFormed, h.each hbs, Bool.and_self]
  | _ => cases has

theorem Checks.optional (h : read.Checks) : (optional read).Checks := by
  intro d o ho
  unfold Reader.optional at ho
  split at ho
  · rfl
  · obtain ⟨a, ha, -⟩ := map_eq_ok_iff.1 ho
    exact h d a ha

end Reader

/-- A reader that takes the fields of a draft checks what the fields do not hold. -/
theorem Shape.ReadBy.checks {F α : Type} [DecidableEq F] {shape : Shape F} {read : Reader α} (hread : shape.ReadBy read)
    (h : ∀ f, (shape.read f).Checks) : read.Checks := by
  obtain ⟨build, hread⟩ := hread
  intro d a ha
  rw [hread] at ha
  obtain ⟨x, hx, -⟩ := bind_eq_ok_iff.1 ha
  cases d with
  | object members complete =>
    obtain ⟨r, hgather, hx⟩ := bind_eq_ok_iff.1 hx
    cases complete with
    | false => cases hx
    | true =>
      have hmembers := (Gathers.gather_eq_ok_iff.1 hgather).wellFormed (fun _ h => h) h
      rw [Document.wellFormed, hmembers]
      rfl
  | array items complete =>
    obtain ⟨y, hfill, hx⟩ := bind_eq_ok_iff.1 hx
    cases complete with
    | false => cases hx
    | true =>
      rw [Document.wellFormed, wellFormed_of_fill hfill h]
      rfl
  | _ => cases hx

theorem AnnotationRef.checks : read.Checks := readBy.checks fun _ => checks_string

theorem RelationDeclaration.checks : read.Checks :=
  readBy.checks fun
    | .relation => checks_variant _
    | .target => checks_string

theorem TypeRef.checks_readAt : ∀ depth, (readAt depth).Checks
  | 0 => by
    intro d a h
    cases h
  | depth + 1 => (readBy _).checks fun
    | .name => checks_string
    | .bounds => (checks_readAt depth).list

theorem Details.checks {ε : Type} {element : Reader ε} (h : element.Checks) : (read element).Checks := by
  intro d details hd
  unfold read at hd
  split at hd
  · rfl
  · rename_i name content more complete
    obtain ⟨operation, -, hd⟩ := bind_eq_ok_iff.1 hd
    have hend : ∀ {found : Details ε}, content.wellFormed = true →
        (if more.isEmpty && complete then Except.ok found else .error Fault.invalid) = .ok details →
          (Document.object ((some name, content) :: more) complete).wellFormed = true := by
      intro found hcontent h
      split at h
      · rename_i hend
        rw [Bool.and_eq_true, List.isEmpty_iff] at hend
        obtain ⟨rfl, rfl⟩ := hend
        simp only [Document.wellFormed, Document.wellFormedMembers, hcontent, Bool.and_self]
      · cases h
    dsimp only at hd
    split at hd
    · obtain ⟨found, hfound, hd⟩ := bind_eq_ok_iff.1 hd
      have hoperation : (readOperation element).Checks := (readBy element).checks fun
        | .parameters | .throwables => h.list
      exact hend (hoperation _ _ hfound) hd
    · split at hd
      · exact hend rfl hd
      · cases hd
  · cases hd

theorem Element.checks_readAt : ∀ depth, (readAt depth).Checks
  | 0 => by
    intro d a h
    cases h
  | depth + 1 => by
    intro d e he
    rw [readAt, readWith_eq] at he
    obtain ⟨⟨x, os⟩, hx, -⟩ := bind_eq_ok_iff.1 he
    cases d with
    | object members complete =>
      obtain ⟨r, hgather, hx⟩ := bind_eq_ok_iff.1 hx
      cases complete with
      | false => cases hx
      | true =>
        have hmembers := (Gathers.gather_eq_ok_iff.1 hgather).wellFormed Document.wellFormed_of_sound fun
          | .annotations => AnnotationRef.checks.list
          | .declaredType => (TypeRef.checks_readAt _).optional
          | .suffix => checks_string.optional
          | .details => Details.checks (checks_readAt depth)
        rw [Document.wellFormed, hmembers]
        rfl
    | _ => cases hx

theorem ClassDeclaration.checks : read.Checks :=
  readBy.checks fun
    | .id | .name => checks_string
    | .kind | .visibility => checks_variant _
    | .modifiers => by
      intro d s hs
      obtain ⟨ms, hms, -⟩ := map_eq_ok_iff.1 hs
      exact (checks_variant _).list d ms hms
    | .annotations => AnnotationRef.checks.list
    | .typeParameters => (TypeRef.checks_readAt _).list
    | .superClass => checks_string.optional
    | .interfaces => checks_string.list
    | .members => (Element.checks_readAt _).list
    | .relations => RelationDeclaration.checks.list

theorem Snapshot.checks : read.Checks := readBy.checks fun _ => ClassDeclaration.checks.list

end ClassAtlas
