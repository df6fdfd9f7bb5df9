import ClassAtlas.Proofs.Passages
import Mathlib.Data.List.DropRight

/-! The scanner takes the texts of passages and no others: a passage is scanned as its document (`document_chars`), and
each text that is scanned without a syntax error is that of a passage (`exists_passage`). -/

namespace ClassAtlas

open Scan

namespace Scan

variable {text rest : List Char} {fuel level : Nat}

theorem skipBlanks_skipBlanks (text : List Char) : skipBlanks (skipBlanks text) = skipBlanks text :=
  List.dropWhile_idempotent ..

theorem value_skipBlanks : value fuel level (skipBlanks text) = value fuel level text := by
  cases fuel with
  | zero => rfl
  | succ fuel => rw [value, value, skipBlanks_skipBlanks]

theorem items_skipBlanks : items fuel level (skipBlanks text) = items fuel level text := by
  cases fuel with
  | zero => rfl
  | succ fuel => rw [items, items, value_skipBlanks]

theorem members_skipBlanks : members fuel level (skipBlanks text) = members fuel level text := by
  cases fuel with
  | zero => rfl
  | succ fuel => rw [members, members, skipBlanks_skipBlanks]

/-- An array that does not end at once holds items. -/
theorem array_items (h : ∀ rest, skipBlanks text ≠ ']' :: rest) : array (fuel + 1) level text =
    (.array (items fuel level text).1 (items fuel level text).2.1, (items fuel level text).2.2) := by
  rw [array]
  split
  · rename_i hend
    exact absurd hend (h _)
  · rw [items_skipBlanks]

theorem object_members (h : ∀ rest, skipBlanks text ≠ '\x7d' :: rest) : object (fuel + 1) level text =
    (.object (members fuel level text).1 (members fuel level text).2.1, (members fuel level text).2.2) := by
  rw [object]
  split
  · rename_i hend
    exact absurd hend (h _)
  · rw [members_skipBlanks]

end Scan

section Sound

variable {rest : List Char} {fuel level : Nat}

/-- A number is what starts like none of the other values. -/
theorem Scan.value_number {n : Numeral} {text rest : List Char} {fuel level : Nat} (h : n.Literal text)
    (hrest : Numeral.Ends rest) : value (fuel + 1) level (text ++ rest) = (.number n, rest) := by
  have hscan := Numeral.scan?_literal h hrest
  obtain ⟨c, tail, rfl, hc⟩ := h.head?
  rw [value, List.cons_append, skipBlanks_cons (Numeral.isBlank_start hc)]
  split
  case h_7 => rw [List.cons_append] at hscan; rw [hscan]
  all_goals
    rename_i hother
    rw [(List.cons.inj hother).1] at hc
    exact absurd hc (by decide)

theorem Scan.value_token (t : Token) (hrest : Numeral.Ends rest) :
    value (fuel + 1) level (t.chars ++ rest) = (t.document, rest) := by
  obtain ⟨d, text, scalar⟩ := t
  cases scalar with
  | null | true | false => rfl
  | number literal => exact value_number literal hrest
  | string quoted =>
    change value (fuel + 1) level ('"' :: ((_ ++ ['"']) ++ rest)) = _
    rw [value, skipBlanks_cons rfl, List.append_assoc]
    simp only [List.singleton_append, string?_quoted quoted]

namespace Scan

theorem value_blanks (gap : Blanks) {text : List Char} :
    value fuel level (gap.chars ++ text) = value fuel level text := by
  rw [← value_skipBlanks, skipBlanks_append, value_skipBlanks]

theorem value_bracket {text : List Char} : value (fuel + 1) (level + 1) ('[' :: text) = array fuel level text := by
  rw [value, skipBlanks_cons rfl]
  rfl

theorem value_brace {text : List Char} : value (fuel + 1) (level + 1) ('\x7b' :: text) = object fuel level text := by
  rw [value, skipBlanks_cons rfl]
  rfl

end Scan

/-- A member with another one behind it. -/
theorem Scan.members_comma (key : Key) {d : Document} (hvalue : value fuel level text = (d, rest))
    {more : List Char} (hrest : skipBlanks rest = ',' :: more) :
    members (fuel + 1) level (key.chars ++ ':' :: text) =
      ((key.name, d) :: (members fuel level more).1, (members fuel level more).2.1,
        (members fuel level more).2.2) := by
  have hcolon : skipBlanks (':' :: text) = ':' :: text := skipBlanks_cons rfl
  rw [Key.chars, List.append_assoc, members, skipBlanks_append, List.cons_append, skipBlanks_cons rfl]
  simp only [List.append_assoc, List.cons_append, string?_quoted key.quoted, skipBlanks_append, hcolon, hvalue, hrest,
    Key.name]

/-- The last member of an object. -/
theorem Scan.members_brace (key : Key) {d : Document} (hvalue : value fuel level text = (d, rest))
    {more : List Char} (hrest : skipBlanks rest = '\x7d' :: more) :
    members (fuel + 1) level (key.chars ++ ':' :: text) = ([(key.name, d)], true, more) := by
  have hcolon : skipBlanks (':' :: text) = ':' :: text := skipBlanks_cons rfl
  rw [Key.chars, List.append_assoc, members, skipBlanks_append, List.cons_append, skipBlanks_cons rfl]
  simp only [List.append_assoc, List.cons_append, string?_quoted key.quoted, skipBlanks_append, hcolon, hvalue, hrest,
    Key.name]

mutual

/-- A passage is scanned with fuel for two steps a character. -/
theorem Scan.value_chars : ∀ (p : Passage) {fuel level : Nat} {rest : List Char}, p.depth ≤ level → Numeral.Ends rest →
    2 * p.chars.length ≤ fuel → value fuel level (p.chars ++ rest) = (p.document, p.after.chars ++ rest)
  | .scalar before token after, fuel, level, rest, _, hrest, hfuel => by
    have hpos := (Passage.scalar before token after).length_pos
    obtain ⟨fuel, rfl⟩ : ∃ k, fuel = k + 1 := ⟨fuel - 1, by omega⟩
    rw [Passage.chars, List.append_assoc, value_blanks, List.append_assoc, value_token token (hrest.blanks after)]
    rfl
  | .array .., _, 0, _, hdepth, _, _ => by simp [Passage.depth] at hdepth
  | .object .., _, 0, _, hdepth, _, _ => by simp [Passage.depth] at hdepth
  | .array before items closing after, fuel, level + 1, rest, hdepth, hrest, hfuel => by
    -- opening an array takes a step for the bracket and one for what follows it
    obtain ⟨fuel, rfl⟩ : ∃ k, fuel = k + 2 := ⟨fuel - 2, by
      simp only [Passage.chars, List.length_append, List.length_cons] at hfuel
      omega⟩
    rw [Passage.chars_array, value_blanks, value_bracket]
    cases items with
    | nil =>
      change array (fuel + 1) level (closing.chars ++ ']' :: (after.chars ++ rest)) = _
      rw [array, skipBlanks_append, skipBlanks_cons rfl]
      rfl
    | cons p ps =>
      have hitems : items fuel level (Passage.itemsText (p :: ps) closing (after.chars ++ rest)) =
          (Passage.documents (p :: ps), true, after.chars ++ rest) := by
        refine items_chars (p :: ps) (List.cons_ne_nil _ _) (Nat.le_of_succ_le_succ hdepth) ?_
        simp only [Passage.chars, List.length_append, List.length_cons] at hfuel
        omega
      rw [array_items Passage.itemsText_open, hitems]
      rfl
  | .object before members closing after, fuel, level + 1, rest, hdepth, hrest, hfuel => by
    obtain ⟨fuel, rfl⟩ : ∃ k, fuel = k + 2 := ⟨fuel - 2, by
      simp only [Passage.chars, List.length_append, List.length_cons] at hfuel
      omega⟩
    rw [Passage.chars_object, value_blanks, value_brace]
    cases members with
    | nil =>
      change object (fuel + 1) level (closing.chars ++ '\x7d' :: (after.chars ++ rest)) = _
      rw [object, skipBlanks_append, skipBlanks_cons rfl]
      rfl
    | cons m ms =>
      have hmembers : Scan.members fuel level (Passage.membersText (m :: ms) closing (after.chars ++ rest)) =
          (Passage.memberDocuments (m :: ms), true, after.chars ++ rest) := by
        refine members_chars (m :: ms) (List.cons_ne_nil _ _) (Nat.le_of_succ_le_succ hdepth) ?_
        simp only [Passage.chars, List.length_append, List.length_cons] at hfuel
        omega
      rw [object_members Passage.membersText_open, hmembers]
      rfl

theorem Scan.items_chars : ∀ (ps : List Passage) {fuel level : Nat} {closing : Blanks} {rest : List Char}, ps ≠ [] →
    Passage.depthItems ps ≤ level → 2 * ([','].intercalate (Passage.itemChars ps)).length < fuel →
      items fuel level (Passage.itemsText ps closing rest) = (Passage.documents ps, true, rest)
  | [], _, _, _, _, hne, _, _ => absurd rfl hne
  | _ :: _, 0, _, _, _, _, _, hfuel => absurd hfuel (Nat.not_lt_zero _)
  | [p], fuel + 1, level, closing, rest, _, hdepth, hfuel => by
    have hvalue : value fuel level (p.chars ++ (closing.chars ++ ']' :: rest)) =
        (p.document, p.after.chars ++ (closing.chars ++ ']' :: rest)) := by
      refine value_chars p (Nat.le_trans (Nat.le_max_left ..) hdepth)
        ((Numeral.ends_cons (by decide)).blanks closing) ?_
      rw [Passage.itemChars, Passage.itemChars, List.intercalate_singleton] at hfuel
      exact Nat.le_of_lt_succ hfuel
    rw [Passage.itemsText_singleton, items, hvalue]
    simp only [skipBlanks_append, skipBlanks_cons (c := ']') rfl]
    rfl
  | p :: q :: ps, fuel + 1, level, closing, rest, _, hdepth, hfuel => by
    rw [Passage.itemChars, Passage.itemChars, List.intercalate_cons_cons, List.length_append,
      List.length_append] at hfuel
    have hvalue : value fuel level (p.chars ++ ',' :: Passage.itemsText (q :: ps) closing rest) =
        (p.document, p.after.chars ++ ',' :: Passage.itemsText (q :: ps) closing rest) :=
      value_chars p (Nat.le_trans (Nat.le_max_left ..) hdepth) (Numeral.ends_cons (by decide)) (by omega)
    have hmore : items fuel level (Passage.itemsText (q :: ps) closing rest) =
        (Passage.documents (q :: ps), true, rest) := by
      refine items_chars (q :: ps) (List.cons_ne_nil _ _) (Nat.le_trans (Nat.le_max_right ..) hdepth) ?_
      simp only [List.length_singleton] at hfuel
      rw [Passage.itemChars]
      omega
    rw [Passage.itemsText_cons_cons, items, hvalue]
    simp only [skipBlanks_append, skipBlanks_cons (c := ',') rfl, hmore]
    rfl

theorem Scan.members_chars : ∀ (ms : List (Key × Passage)) {fuel level : Nat} {closing : Blanks} {rest : List Char},
    ms ≠ [] → Passage.depthMembers ms ≤ level → 2 * ([','].intercalate (Passage.memberChars ms)).length < fuel →
      members fuel level (Passage.membersText ms closing rest) = (Passage.memberDocuments ms, true, rest)
  | [], _, _, _, _, hne, _, _ => absurd rfl hne
  | _ :: _, 0, _, _, _, _, _, hfuel => absurd hfuel (Nat.not_lt_zero _)
  | [(key, p)], fuel + 1, level, closing, rest, _, hdepth, hfuel => by
    have hvalue : value fuel level (p.chars ++ (closing.chars ++ '\x7d' :: rest)) =
        (p.document, p.after.chars ++ (closing.chars ++ '\x7d' :: rest)) := by
      refine value_chars p (Nat.le_trans (Nat.le_max_left ..) hdepth)
        ((Numeral.ends_cons (by decide)).blanks closing) ?_
      rw [Passage.memberChars, Passage.memberChars, List.intercalate_singleton, List.length_append,
        List.length_cons] at hfuel
      omega
    rw [Passage.membersText_singleton]
    exact members_brace key hvalue (by rw [skipBlanks_append, skipBlanks_append, skipBlanks_cons rfl])
  | (key, p) :: m :: ms, fuel + 1, level, closing, rest, _, hdepth, hfuel => by
    rw [Passage.memberChars, Passage.memberChars_cons, List.intercalate_cons_cons, List.length_append,
      List.length_append, List.length_append, List.length_cons, ← Passage.memberChars_cons] at hfuel
    have hvalue : value fuel level (p.chars ++ ',' :: Passage.membersText (m :: ms) closing rest) =
        (p.document, p.after.chars ++ ',' :: Passage.membersText (m :: ms) closing rest) :=
      value_chars p (Nat.le_trans (Nat.le_max_left ..) hdepth) (Numeral.ends_cons (by decide)) (by omega)
    have hmore : members fuel level (Passage.membersText (m :: ms) closing rest) =
        (Passage.memberDocuments (m :: ms), true, rest) := by
      refine members_chars (m :: ms) (List.cons_ne_nil _ _) (Nat.le_trans (Nat.le_max_right ..) hdepth) ?_
      omega
    rw [Passage.membersText_cons_cons, members_comma key hvalue (by rw [skipBlanks_append, skipBlanks_cons rfl]), hmore]
    rfl

end

end Sound

theorem Passage.document_chars {p : Passage} (hdepth : p.depth ≤ nestingLimit) :
    Scan.document p.chars = (p.document, true) := by
  have hends : Numeral.Ends [] := by
    intro c hc
    cases hc
  have hvalue := value_chars p hdepth hends (Nat.le_succ _)
  rw [List.append_nil, List.append_nil] at hvalue
  rw [Scan.document, hvalue]
  have hblank := skipBlanks_append p.after []
  rw [List.append_nil] at hblank
  simp only [hblank]
  rfl

theorem Passage.document_text {p : Passage} (hdepth : p.depth ≤ nestingLimit) :
    Scan.document p.text.toList = (p.document, true) := by
  rw [text, String.toList_ofList, document_chars hdepth]

section Complete

variable {text rest : List Char} {d : Document}

theorem Scan.exists_word {expected : List Char} {value : Document} (h : word expected value text = (d, rest))
    (hd : d.wellFormed = true) : d = value ∧ text = expected ++ rest := by
  rw [word] at h
  split at h
  · rename_i htake
    cases h
    exact ⟨rfl, (htake ▸ List.take_append_drop ..).symm⟩
  · cases h
    cases hd

mutual

/-- What is scanned without a syntax error is a passage. -/
theorem Scan.exists_value : ∀ {fuel level : Nat} {text rest : List Char} {d : Document},
    value fuel level text = (d, rest) → d.wellFormed = true → ∃ p : Passage, text = p.chars ++ rest
  | 0, _, _, _, _, h, hd => by
    cases h
    cases hd
  | fuel + 1, level, text, rest, d, h, hd => by
    obtain ⟨gap, hgap⟩ := exists_blanks text
    have htoken : ∀ t : Token, skipBlanks text = t.chars ++ rest → ∃ p : Passage, text = p.chars ++ rest := by
      intro t ht
      exact ⟨.scalar gap t .none, by rw [hgap, ht]; simp [Passage.chars]⟩
    rw [value] at h
    split at h
    · rename_i hquote
      split at h
      · rename_i hstring
        cases h
        obtain ⟨body, units, rfl, quoted, rfl⟩ := exists_string hstring
        exact htoken ⟨_, _, .string quoted⟩ (by simp [hquote])
      · cases h
        cases hd
    · rename_i more hbracket
      have harray : ∀ {ps : List Passage} {closing : Blanks}, more = Passage.itemsText ps closing rest →
          ∃ p : Passage, text = p.chars ++ rest := by
        intro ps closing hmore
        exact ⟨.array gap ps closing .none, by rw [hgap, hbracket, hmore, Passage.chars_array]; rfl⟩
      split at h
      · cases h
        obtain ⟨ps, closing, hmore⟩ := exists_array (Prod.mk.eta ..).symm hd
        exact harray hmore
      · obtain ⟨ps, closing, hmore⟩ := exists_array h hd
        exact harray hmore
    · rename_i more hbrace
      have hobject : ∀ {ms : List (Key × Passage)} {closing : Blanks}, more = Passage.membersText ms closing rest →
          ∃ p : Passage, text = p.chars ++ rest := by
        intro ms closing hmore
        exact ⟨.object gap ms closing .none, by rw [hgap, hbrace, hmore, Passage.chars_object]; rfl⟩
      split at h
      · cases h
        obtain ⟨ms, closing, hmore⟩ := exists_object (Prod.mk.eta ..).symm hd
        exact hobject hmore
      · obtain ⟨ms, closing, hmore⟩ := exists_object h hd
        exact hobject hmore
    · rename_i hn
      obtain ⟨rfl, rfl⟩ := exists_word h hd
      exact htoken ⟨_, _, .null⟩ hn
    · rename_i ht
      obtain ⟨rfl, rfl⟩ := exists_word h hd
      exact htoken ⟨_, _, .true⟩ ht
    · rename_i hf
      obtain ⟨rfl, rfl⟩ := exists_word h hd
      exact htoken ⟨_, _, .false⟩ hf
    · split at h
      · rename_i hscan
        cases h
        obtain ⟨body, hbody, literal⟩ := Numeral.exists_literal hscan
        exact htoken ⟨_, _, .number literal⟩ hbody
      · cases h
        cases hd

theorem Scan.exists_array : ∀ {fuel level : Nat} {text rest : List Char} {d : Document},
    array fuel level text = (d, rest) → d.wellFormed = true → ∃ ps closing, text = Passage.itemsText ps closing rest
  | 0, _, _, _, _, h, hd => by
    cases h
    cases hd
  | fuel + 1, level, text, rest, d, h, hd => by
    obtain ⟨gap, hgap⟩ := exists_blanks text
    rw [array] at h
    split at h
    · rename_i hend
      cases h
      exact ⟨[], gap, by rw [hgap, hend]; rfl⟩
    · rcases hitems : items fuel level text with ⟨ds, complete, more⟩
      rw [items_skipBlanks, hitems] at h
      cases h
      rw [Document.wellFormed, Bool.and_eq_true] at hd
      obtain ⟨hds, rfl⟩ := hd
      obtain ⟨p, ps, closing, htext⟩ := exists_items hitems hds
      exact ⟨p :: ps, closing, htext⟩

theorem Scan.exists_items : ∀ {fuel level : Nat} {text rest : List Char} {ds : List Document},
    items fuel level text = (ds, true, rest) → Document.wellFormedItems ds = true →
      ∃ p ps closing, text = Passage.itemsText (p :: ps) closing rest
  | 0, _, _, _, _, h, _ => by cases h
  | fuel + 1, level, text, rest, ds, h, hds => by
    rcases hvalue : value fuel level text with ⟨d, more⟩
    obtain ⟨gap, hgap⟩ := exists_blanks more
    rw [items, hvalue] at h
    dsimp only at h
    split at h
    · rename_i hcomma
      rcases hmore : items fuel level _ with ⟨ds, complete, more⟩
      rw [hmore] at h
      cases h
      rw [Document.wellFormedItems, Bool.and_eq_true] at hds
      obtain ⟨p, rfl⟩ := exists_value hvalue hds.1
      obtain ⟨q, ps, closing, htext⟩ := exists_items hmore hds.2
      refine ⟨p.pad gap, q :: ps, closing, ?_⟩
      rw [hgap, hcomma, htext, Passage.itemsText_cons_cons, Passage.chars_pad, List.append_assoc]
    · rename_i hend
      cases h
      rw [Document.wellFormedItems, Bool.and_eq_true] at hds
      obtain ⟨p, rfl⟩ := exists_value hvalue hds.1
      refine ⟨p, [], gap, ?_⟩
      rw [hgap, hend, Passage.itemsText_singleton]
    · cases h

theorem Scan.exists_object : ∀ {fuel level : Nat} {text rest : List Char} {d : Document},
    object fuel level text = (d, rest) → d.wellFormed = true → ∃ ms closing, text = Passage.membersText ms closing rest
  | 0, _, _, _, _, h, hd => by
    cases h
    cases hd
  | fuel + 1, level, text, rest, d, h, hd => by
    obtain ⟨gap, hgap⟩ := exists_blanks text
    rw [object] at h
    split at h
    · rename_i hend
      cases h
      exact ⟨[], gap, by rw [hgap, hend]; rfl⟩
    · rcases hmembers : members fuel level text with ⟨ds, complete, more⟩
      rw [members_skipBlanks, hmembers] at h
      cases h
      rw [Document.wellFormed, Bool.and_eq_true] at hd
      obtain ⟨hds, rfl⟩ := hd
      obtain ⟨m, ms, closing, htext⟩ := exists_members hmembers hds
      exact ⟨m :: ms, closing, htext⟩

theorem Scan.exists_members : ∀ {fuel level : Nat} {text rest : List Char} {ds : List (Option String × Document)},
    members fuel level text = (ds, true, rest) → Document.wellFormedMembers ds = true →
      ∃ m ms closing, text = Passage.membersText (m :: ms) closing rest
  | 0, _, _, _, _, h, _ => by cases h
  | fuel + 1, level, text, rest, ds, h, hds => by
    obtain ⟨before, hbefore⟩ := exists_blanks text
    rw [members] at h
    split at h
    · rename_i hquote
      split at h
      · cases h
      · rename_i name afterKey hstring
        obtain ⟨body, units, rfl, quoted, rfl⟩ := exists_string hstring
        obtain ⟨after, hafter⟩ := exists_blanks afterKey
        split at h
        · rename_i afterColon hcolon
          obtain ⟨key, hkey⟩ : ∃ key : Key, text = key.chars ++ ':' :: afterColon := by
            refine ⟨⟨before, body, units, quoted, after⟩, ?_⟩
            rw [hbefore, hquote, hafter, hcolon]
            simp [Key.chars]
          rcases hvalue : value fuel level afterColon with ⟨d, more⟩
          obtain ⟨gap, hgap⟩ := exists_blanks more
          rw [hvalue] at h
          dsimp only at h
          split at h
          · rename_i hcomma
            rcases hmore : members fuel level _ with ⟨ds, complete, more⟩
            rw [hmore] at h
            cases h
            rw [Document.wellFormedMembers, Bool.and_eq_true] at hds
            obtain ⟨p, rfl⟩ := exists_value hvalue hds.1
            obtain ⟨m, ms, closing, htext⟩ := exists_members hmore hds.2
            refine ⟨(key, p.pad gap), m :: ms, closing, ?_⟩
            rw [hkey, hgap, hcomma, htext, Passage.membersText_cons_cons, Passage.chars_pad, List.append_assoc]
          · rename_i hend
            cases h
            rw [Document.wellFormedMembers, Bool.and_eq_true] at hds
            obtain ⟨p, rfl⟩ := exists_value hvalue hds.1
            refine ⟨(key, p), [], gap, ?_⟩
            rw [hkey, hgap, hend, Passage.membersText_singleton]
          · cases h
        · cases h
    · cases h

end

/-- Each text that holds a document without a syntax error, and nothing else, is that of a passage. -/
theorem exists_passage {text : String} (halone : (Scan.document text.toList).2 = true)
    (hd : (Scan.document text.toList).1.wellFormed = true) : ∃ p : Passage, p.text = text := by
  rcases hvalue : value (2 * text.toList.length + 1) nestingLimit text.toList with ⟨d, rest⟩
  rw [Scan.document, hvalue] at hd halone
  obtain ⟨p, hp⟩ := exists_value hvalue hd
  obtain ⟨gap, hgap⟩ := exists_blanks rest
  rw [List.isEmpty_iff.1 halone, List.append_nil] at hgap
  refine ⟨p.pad gap, ?_⟩
  rw [Passage.text, Passage.chars_pad, ← hgap, ← hp, String.ofList_toList]

end Complete

end ClassAtlas