import ClassAtlas.Proofs.ElementText
import ClassAtlas.Proofs.TreeNodes
import ClassAtlas.View.TreeJson

/-! A tree view comes back from its text (`parse_written`), whatever its nodes are. What a node shows is kept until its
object has ended, so all of that has to be sound; the children are read in passing, by induction on how deep their JSON
nests. -/

namespace ClassAtlas

namespace Numeral

theorem natural?_ofNat (n : Nat) : (ofNat n).natural? = some n := by
  have hvalue : digitsValue (Nat.toDigits 10 n) = n := Nat.ofDigitChars_ten_toDigits
  simp [natural?, ofNat, hvalue]

theorem inRange_ofNat {n : Nat} (hn : n < 10 ^ 20) : (ofNat n).inRange = true := by
  have hlength : n.repr.toList.length ≤ 20 := by
    rw [Nat.toList_repr, Nat.length_toDigits_le_iff (by decide) (by decide)]
    exact hn
  exact inRange_of_length rfl rfl hlength

end Numeral

namespace StyleView

variable (s : StyleView)

def writing : Field → Json
  | .bold => .bool s.bold
  | .underline => .bool s.underline

def values : (f : Field) → shape.Value f
  | .bold => s.bold
  | .underline => s.underline

theorem writes : Writes shape shape.fields s.writing s.values where
  nodup := by decide
  key f _ := by cases f <;> rfl
  read f _ := by cases f <;> rfl
  absent f hf := by cases f <;> simp [shape] at hf

theorem read_toJson : read s.toJson.document = .ok s := by
  obtain ⟨d, hd, htake⟩ := s.writes.draft
  have hdraft : shape.draft s.toJson.document = .ok d := hd
  unfold read
  simp only [hdraft, htake, bind, Except.bind]
  rfl

end StyleView

namespace ClassRef

variable (c : ClassRef)

def writing : Field → Json
  | .id => .string c.id
  | .name => .string c.name
  | .fullName => .string c.fullName
  | .kind => .string c.kind.name
  | .symbol => .ofChar c.symbol
  | .kindColor => .string c.kindColor
  | .processed => .bool c.processed
  | .color => .string c.color
  | .style => c.style.toJson

def values : (f : Field) → shape.Value f
  | .id => c.id
  | .name => c.name
  | .fullName => c.fullName
  | .kind => c.kind
  | .symbol => c.symbol
  | .kindColor => c.kindColor
  | .processed => c.processed
  | .color => c.color
  | .style => c.style

theorem writes : Writes shape shape.fields c.writing c.values where
  nodup := by decide
  key f _ := by cases f <;> rfl
  read f _ := by
    cases f with
    | kind => exact read_kind reads_keptVariant c.kind
    | symbol =>
      change Reader.char (.string (some (String.singleton c.symbol))) = _
      simp [Reader.char]
      rfl
    | style => exact c.style.read_toJson
    | _ => rfl
  absent f hf := by cases f <;> simp [shape] at hf

theorem readKept_toJson : readKept c.toJson.document = .ok c := by
  obtain ⟨d, hd, htake⟩ := c.writes.draft
  have hdraft : shape.draft c.toJson.document = .ok d := hd
  unfold readKept
  simp only [hdraft, htake, bind, Except.bind]
  rfl

end ClassRef

namespace TreeViewItem

/-- The count of a group is a machine word. -/
def countFits : TreeViewItem → Bool
  | .group _ _ _ _ (some n) => n < countBound
  | _ => true

/-- The name of the item's variant. -/
def typeName : TreeViewItem → String
  | .classRef _ => "class"
  | .element .. => "element"
  | .annotationRef .. => "annotation"
  | .group .. => "group"

section Fields

variable (id : String) (kind : ElementKind) (visibility : Visibility) (text name marker symbol title : String)
  (style : StyleView) (ref : ClassRef) (color : Option String) (count : Option Nat)

theorem writes_class : Writes classShape classShape.fields (fun _ => ref.toJson) (fun _ => ref) where
  nodup := by decide
  key f _ := by cases f; rfl
  read _ _ := ref.readKept_toJson
  absent f hf := by cases f; simp [classShape] at hf

def writingElement : ElementField → Json
  | .id => .string id
  | .kind => .string kind.name
  | .visibility => .string visibility.name
  | .text => .string text
  | .style => style.toJson

def valuesElement : (f : ElementField) → elementShape.Value f
  | .id => id
  | .kind => kind
  | .visibility => visibility
  | .text => text
  | .style => style

theorem writes_element : Writes elementShape elementShape.fields (writingElement id kind visibility text style)
    (valuesElement id kind visibility text style) where
  nodup := by decide
  key f _ := by cases f <;> rfl
  read f _ := by
    cases f with
    | id | text => rfl
    | kind => exact read_kind reads_keptVariant kind
    | visibility => exact read_visibility reads_keptVariant visibility
    | style => exact style.read_toJson
  absent f hf := by cases f <;> simp [elementShape] at hf

def writingAnnotationRef : AnnotationField → Json
  | .id => .string id
  | .name => .string name

def valuesAnnotationRef : (f : AnnotationField) → annotationShape.Value f
  | .id => id
  | .name => name

theorem writes_annotationRef : Writes annotationShape annotationShape.fields (writingAnnotationRef id name)
    (valuesAnnotationRef id name) where
  nodup := by decide
  key f _ := by cases f <;> rfl
  read f _ := by cases f <;> rfl
  absent f hf := by cases f <;> simp [annotationShape] at hf

def writingGroup : GroupField → Json
  | .marker => .string marker
  | .symbol => .string symbol
  | .title => .string title
  | .color => .ofOption .string color
  | .count => .ofOption .number count

def valuesGroup : (f : GroupField) → groupShape.Value f
  | .marker => marker
  | .symbol => symbol
  | .title => title
  | .color => color
  | .count => count

/-- Colours and counts are left out where there are none. -/
def writtenGroup : List GroupField :=
  [.marker, .symbol, .title] ++ (if color.isSome then [.color] else []) ++ if count.isSome then [.count] else []

theorem writes_group (hcount : ∀ n, count = some n → n < countBound) :
    Writes groupShape (writtenGroup color count) (writingGroup marker symbol title color count)
      (valuesGroup marker symbol title color count) where
  nodup := by unfold writtenGroup; split <;> split <;> decide
  key f _ := by cases f <;> rfl
  read f _ := by
    cases f with
    | color => exact Reader.optional_document fun _ _ => ⟨rfl, Document.noConfusion⟩
    | count =>
      refine Reader.optional_document fun n hn => ⟨?_, Document.noConfusion⟩
      simp only [Json.document, Reader.natural, Numeral.natural?_ofNat, hcount n hn, if_true]
    | _ => rfl
  absent f hf := by
    cases f with
    | color =>
      have hnone : color = none := by simpa [writtenGroup] using hf
      exact congrArg some hnone.symm
    | count =>
      have hnone : count = none := by simpa [writtenGroup] using hf
      exact congrArg some hnone.symm
    | _ => simp [writtenGroup] at hf

end Fields

/-- The members of the item besides its type. -/
def fieldMembers : TreeViewItem → List (String × Json)
  | .classRef ref => classShape.entries (fun _ => ref.toJson) classShape.fields
  | .element id kind visibility text style =>
    elementShape.entries (writingElement id kind visibility text style) elementShape.fields
  | .annotationRef id name => annotationShape.entries (writingAnnotationRef id name) annotationShape.fields
  | .group marker symbol title color count =>
    groupShape.entries (writingGroup marker symbol title color count) (writtenGroup color count)

theorem members_eq (item : TreeViewItem) : item.members = ("type", .string item.typeName) :: item.fieldMembers := by
  cases item with
  | group marker symbol title color count => cases color <;> cases count <;> rfl
  | _ => rfl

def variantOf : TreeViewItem → Variant
  | .classRef _ => .classRef
  | .element .. => .element
  | .annotationRef .. => .annotationRef
  | .group .. => .group

theorem key_fieldMembers (item : TreeViewItem) : ∀ m ∈ item.fieldMembers, m.1 ≠ "type" ∧ m.1 ≠ "children" := by
  intro m hm
  cases item with
  | _ =>
    obtain ⟨f, -, rfl⟩ := List.mem_map.1 hm
    cases f <;> simp [classShape, elementShape, annotationShape, groupShape]

/-- Members of other keys stay where the type was taken out. -/
theorem takeType_of_ne {ms : List (String × Json)} (h : ∀ m ∈ ms, m.1 ≠ "type") (found : Option Variant) :
    takeType (Json.memberDocuments ms) found = .ok (found, Json.memberDocuments ms) := by
  induction ms with
  | nil => rfl
  | cons m ms ih =>
    obtain ⟨key, value⟩ := m
    have hkey : some key ≠ some "type" := fun e => h _ (List.mem_cons_self ..) (Option.some.inj e)
    have htail := ih fun n hn => h n (List.mem_cons_of_mem _ hn)
    rw [Json.memberDocuments, takeType.eq_def]
    simp only [if_neg hkey, htail]
    rfl

theorem takeType_members (item : TreeViewItem) : takeType (Json.memberDocuments item.members) none =
    .ok (some item.variantOf, Json.memberDocuments item.fieldMembers) := by
  have hrest := takeType_of_ne (fun m hm => (item.key_fieldMembers m hm).1) (some item.variantOf)
  have hread : readVariant (.string (some item.typeName)) = .ok item.variantOf := by cases item <;> rfl
  rw [members_eq, Json.memberDocuments, takeType, if_pos rfl, Json.document, hread]
  exact hrest

/-- An item comes back from the members that were kept of it. -/
theorem ofKept_members {item : TreeViewItem} (hcount : item.countFits = true) :
    ofKept (Json.memberDocuments item.members) = .ok item := by
  unfold ofKept
  simp only [takeType_members, bind, Except.bind]
  cases item with
  | classRef ref =>
    obtain ⟨d, hd, htake⟩ := (writes_class ref).ofKept
    simp only [variantOf, fieldMembers, ofMembers, hd, htake, bind, Except.bind]
    rfl
  | element id kind visibility text style =>
    obtain ⟨d, hd, htake⟩ := (writes_element id kind visibility text style).ofKept
    simp only [variantOf, fieldMembers, ofMembers, hd, htake, bind, Except.bind]
    rfl
  | annotationRef id name =>
    obtain ⟨d, hd, htake⟩ := (writes_annotationRef id name).ofKept
    simp only [variantOf, fieldMembers, ofMembers, hd, htake, bind, Except.bind]
    rfl
  | group marker symbol title color count =>
    have hfits : ∀ n, count = some n → n < countBound := by
      rintro n rfl
      simpa [countFits] using hcount
    obtain ⟨d, hd, htake⟩ := (writes_group marker symbol title color count hfits).ofKept
    simp only [variantOf, fieldMembers, ofMembers, hd, htake, bind, Except.bind]
    rfl

/-- What is kept of an item is sound. -/
theorem sound_members {item : TreeViewItem} (hcount : item.countFits = true) :
    ∀ m ∈ item.members, m.2.document.sound = true := by
  intro m hm
  cases item with
  | group marker symbol title color count =>
    rw [members_eq] at hm
    rcases List.mem_cons.1 hm with rfl | hm
    · rfl
    obtain ⟨f, -, rfl⟩ := List.mem_map.1 hm
    cases f with
    | count =>
      cases count with
      | none => rfl
      | some n =>
        have hword : n < countBound := by simpa [countFits] using hcount
        exact Numeral.inRange_ofNat (Nat.lt_trans hword (by decide))
    | color => cases color <;> rfl
    | _ => rfl
  | _ =>
    rw [members_eq] at hm
    rcases List.mem_cons.1 hm with rfl | hm
    · rfl
    obtain ⟨f, -, rfl⟩ := List.mem_map.1 hm
    cases f <;> rfl

end TreeViewItem

namespace TreeView

theorem listJson_eq_map (vs : List TreeView) : listJson vs = vs.map toJson := by
  induction vs with
  | nil => rfl
  | cons v vs ih => rw [listJson, ih, List.map_cons]

variable (v : TreeView)

/-- Children are left out if there are none. -/
def written : List Field := if v.children.isEmpty then [] else [.children]

theorem toJson_eq (child : Reader TreeView) : v.toJson =
    .object (v.item.members ++ (shape child).entries (fun _ => .ofList toJson v.children) v.written) := by
  match v with
  | ⟨item, []⟩ =>
    rw [toJson]
    exact congrArg Json.object (List.append_nil _).symm
  | ⟨item, c :: children⟩ =>
    rw [toJson, listJson_eq_map]
    rfl

theorem writes {child : Reader TreeView} (hchildren : ∀ c ∈ v.children, child c.toJson.document = .ok c) :
    Writes (shape child) v.written (fun _ => .ofList toJson v.children) (fun _ => v.children) where
  nodup := by unfold written; split <;> decide
  key f _ := by cases f; rfl
  read _ _ := Reader.list_document hchildren
  absent f hf := by
    have hnil : v.children = [] := by
      cases f
      simpa [written] using hf
    exact congrArg some hnil.symm

/-- A child lies two levels below its node. -/
theorem depth_child {c : TreeView} (hc : c ∈ v.children) : c.toJson.depth + 2 ≤ v.toJson.depth := by
  have hlist : c.toJson.depth < (Json.ofList toJson v.children).depth :=
    Json.depth_lt_of_mem_items (List.mem_map_of_mem hc)
  have hwritten : Field.children ∈ v.written := by simpa [written] using List.ne_nil_of_mem hc
  have hobject : (Json.ofList toJson v.children).depth < v.toJson.depth := by
    rw [v.toJson_eq read]
    exact Json.depth_lt_of_mem_members (List.mem_append_right _ (List.mem_map_of_mem hwritten))
  omega

theorem depth_pos : 0 < v.toJson.depth := by
  rw [v.toJson_eq read, Json.depth]
  exact Nat.succ_pos _

/-- Children are no members of the item. -/
theorem field?_members (child : Reader TreeView) : ∀ m ∈ v.item.members, (shape child).field? m.1 = none := by
  intro m hm
  rw [TreeViewItem.members_eq] at hm
  rcases List.mem_cons.1 hm with rfl | hm
  · rfl
  · have hkey := (v.item.key_fieldMembers m hm).2
    simp [Shape.field?, shape, hkey.symm]

theorem readAt_toJson {depth : Nat} : ∀ {v : TreeView}, v.toJson.depth ≤ depth →
    (∀ u ∈ v.nodes, u.item.countFits = true) → readAt depth v.toJson.document = .ok v := by
  induction depth with
  | zero =>
    intro v hdepth _
    exact absurd v.depth_pos (Nat.not_lt.2 hdepth)
  | succ depth ih =>
    intro v hdepth hcounts
    have hchildren : ∀ c ∈ v.children, readAt depth c.toJson.document = .ok c := by
      intro c hc
      have := v.depth_child hc
      exact ih (by omega) fun u hu => hcounts u (mem_nodes_of_child hc hu)
    have hitem := hcounts v v.self_mem_nodes
    obtain ⟨d, hd, htake⟩ := (v.writes hchildren).draftKeeping
      fun m hm => ⟨v.field?_members _ m hm, TreeViewItem.sound_members hitem m hm⟩
    rw [← toJson_eq] at hd
    unfold readAt readWith
    simp only [hd, htake, TreeViewItem.ofKept_members hitem, bind, Except.bind]
    cases v
    rfl

mutual

/-- The labels of a tree with their depths: that of the root at its own depth, then those of the children, which lie
one level deeper. -/
inductive Labelled : Nat → TreeView → List (Nat × String) → Prop
  | node {depth : Nat} {item : TreeViewItem} {children : List TreeView} {below : List (Nat × String)}
      (labelled : AllLabelled (depth + 1) children below) :
      Labelled depth ⟨item, children⟩ ((depth, item.label) :: below)

/-- The labels of trees at one depth, tree by tree. -/
inductive AllLabelled : Nat → List TreeView → List (Nat × String) → Prop
  | nil {depth : Nat} : AllLabelled depth [] []
  | cons {depth : Nat} {v : TreeView} {vs : List TreeView} {first rest : List (Nat × String)}
      (head : Labelled depth v first) (tail : AllLabelled depth vs rest) :
      AllLabelled depth (v :: vs) (first ++ rest)

end

mutual

theorem labelled_outlineAt (depth : Nat) :
    ∀ v : TreeView, Labelled depth v ((outlineAt depth v).map fun (depth, item) => (depth, item.label))
  | ⟨item, children⟩ => by
    rw [outlineAt, List.map_cons]
    exact .node (labelled_outlinesAt (depth + 1) children)

theorem labelled_outlinesAt (depth : Nat) : ∀ vs : List TreeView,
    AllLabelled depth vs ((outlinesAt depth vs).map fun (depth, item) => (depth, item.label))
  | [] => .nil
  | v :: vs => by
    rw [outlinesAt, List.map_append]
    exact .cons (labelled_outlineAt depth v) (labelled_outlinesAt depth vs)

end

/-- Both texts of a tree view whose JSON nests within the limit are read as that view, and what is read has the labels
that the view lists. Counts are machine words. -/
theorem parse_written {v : TreeView} (hdepth : v.toJson.depth ≤ nestingLimit)
    (hcounts : ∀ u ∈ v.nodes, u.item.countFits = true) :
    ∀ text ∈ [v.toJson.compact, v.toJson.pretty],
      parse text = .ok v ∧ ∀ w, parse text = .ok w → Labelled 0 w v.outline := by
  have hread : ∀ text : String, Scan.document text.toList = (v.toJson.document, true) → parse text = .ok v := by
    intro text htext
    rw [parse, Reader.parse, htext]
    simp only [read, readAt_toJson hdepth hcounts, bind, Except.bind, if_true]
  intro text htext
  have hparse : parse text = .ok v := by
    simp only [List.mem_cons, List.not_mem_nil, or_false] at htext
    rcases htext with rfl | rfl
    · exact hread _ (Json.document_compact hdepth)
    · exact hread _ (Json.document_pretty hdepth)
  refine ⟨hparse, fun w hw => ?_⟩
  cases hparse.symm.trans hw
  exact labelled_outlineAt 0 v

/-- A group in a group in a group, and so on down to a class. -/
def nested : Nat → TreeView
  | 0 => ⟨.classRef ⟨"a.\"B\"", "\\n😀", "a.B<T>", .interface, '"', "#FFF", false, "", ⟨true, false⟩⟩, []⟩
  | n + 1 => ⟨.group "CONTENT" "∋" "type" none (some (TreeViewItem.countBound - 1)), [nested n]⟩

/-- A class over an element, an annotation, and groups that nest as deep as the limit allows. -/
def branching : TreeView :=
  ⟨.classRef ⟨"", "", "", .throwable, '\x00', "", true, "#000000", ⟨false, true⟩⟩,
    [⟨.element "children" .throws .localAccess "+ run(  ) : \t" ⟨false, false⟩, [⟨.annotationRef "type" "group", []⟩]⟩,
      ⟨.group "" "" "" (some "#FFFFFF") (some 0), []⟩, nested 61]⟩

theorem parse_written_branching : branching.toJson.depth = nestingLimit ∧
    (∀ u ∈ branching.nodes, u.item.countFits = true) ∧
    branching.outline.take 5 =
      [(0, "[\x00] "), (1, "+ run(  ) : \t"), (2, "@group"), (1, "  (0)"), (1, "∋ type (18446744073709551615)")] ∧
    ∀ text ∈ [branching.toJson.compact, branching.toJson.pretty],
      parse text = .ok branching ∧ ∀ w, parse text = .ok w → Labelled 0 w branching.outline := by
  have hdepth : branching.toJson.depth = nestingLimit := by decide +kernel
  have hcounts : ∀ u ∈ branching.nodes, u.item.countFits = true := by decide +kernel
  exact ⟨hdepth, hcounts, by decide +kernel, parse_written (Nat.le_of_eq hdepth) hcounts⟩

end TreeView

end ClassAtlas
