import ClassAtlas.Command.Run
import ClassAtlas.Proofs.Answering
import ClassAtlas.Proofs.Literals
import ClassAtlas.Proofs.Outlines
import ClassAtlas.Proofs.Qualifiers

/-! A hierarchy is printed as the lines of its outline, and these can be read back (`hierarchy_printed`): no line is
broken, because no name is, and the depth of a line is seen from its indentation, because no label starts with a
space. -/

namespace ClassAtlas

open Report

/-- The text has no line break. -/
def OneLine (text : String) : Prop := '\n' ∉ text.toList

instance (text : String) : Decidable (OneLine text) := inferInstanceAs (Decidable (¬ _))

/-- The lines of a text, where each line is ended by a line break. -/
def linesOf (text : String) : List String := (text.toList.splitOn '\n').dropLast.map String.ofList

/-- How far a line is moved in. -/
def indentation (line : String) : Nat := (line.toList.takeWhile (· = ' ')).length

theorem oneLine_empty : OneLine "" := by decide

@[simp] theorem oneLine_append {a b : String} : OneLine (a ++ b) ↔ OneLine a ∧ OneLine b := by
  simp [OneLine, not_or]

theorem oneLine_intercalate {glue : String} {texts : List String} (hglue : OneLine glue)
    (htexts : ∀ text ∈ texts, OneLine text) : OneLine (glue.intercalate texts) := by
  induction texts with
  | nil => exact oneLine_empty
  | cons a texts ih =>
    obtain ⟨ha, hrest⟩ := List.forall_mem_cons.1 htexts
    cases texts with
    | nil => simpa using ha
    | cons b texts =>
      rw [String.intercalate_cons_cons]
      exact oneLine_append.2 ⟨oneLine_append.2 ⟨ha, hglue⟩, ih hrest⟩

theorem OneLine.stripQualifiers {text : String} (h : OneLine text) : OneLine (stripQualifiers text) := by
  unfold OneLine
  rw [toList_stripQualifiers]
  exact fun hmem => h ((Qualifier.strip_sublist _).subset hmem)

theorem oneLine_repr (n : Nat) : OneLine n.repr := fun hmem =>
  absurd (Numeral.isDigit_repr _ hmem) (by decide)

theorem oneLine_repeated (n : Nat) : OneLine (repeated ' ' n) := by
  simp [OneLine, repeated]

theorem linesOf_textOfLines {lines : List String} (h : ∀ line ∈ lines, OneLine line) :
    linesOf (textOfLines lines) = lines := by
  induction lines with
  | nil => rfl
  | cons line lines ih =>
    obtain ⟨hline, hlines⟩ := List.forall_mem_cons.1 h
    have hsplit : (textOfLines (line :: lines)).toList.splitOn '\n' =
        line.toList :: (textOfLines lines).toList.splitOn '\n' := by
      have htext : (textOfLines (line :: lines)).toList = line.toList ++ '\n' :: (textOfLines lines).toList := by
        simp [textOfLines]
      rw [htext]
      refine List.splitOnP_append_cons_of_forall_mem (fun c hc => ?_) '\n' (by decide) _
      exact beq_false_of_ne fun heq => hline (heq ▸ hc)
    have hne : (textOfLines lines).toList.splitOn '\n' ≠ [] := List.splitOnP_ne_nil _ _
    rw [linesOf, hsplit, List.dropLast_cons_of_ne_nil hne, List.map_cons, String.ofList_toList]
    exact congrArg (line :: ·) (ih hlines)

/-- A class whose name and type parameters have no line break. -/
structure ClassNode.Unbroken (n : ClassNode) : Prop where
  name : OneLine n.element.name
  parameters : ∀ t ∈ n.typeParameters, OneLine t.declaration

namespace ClassNode

instance (n : ClassNode) : Decidable n.Unbroken :=
  decidable_of_iff (OneLine n.element.name ∧ ∀ t ∈ n.typeParameters, OneLine t.declaration)
    ⟨fun h => ⟨h.1, h.2⟩, fun h => ⟨h.name, h.parameters⟩⟩

theorem Unbroken.shortName {n : ClassNode} (h : n.Unbroken) : OneLine n.shortName := by
  refine OneLine.stripQualifiers (oneLine_append.2 ⟨h.name, ?_⟩)
  unfold declareTypeParameters
  split
  · exact oneLine_empty
  · refine oneLine_append.2 ⟨oneLine_append.2 ⟨by decide, ?_⟩, by decide⟩
    exact oneLine_intercalate (by decide) (List.forall_mem_map.2 h.parameters)

end ClassNode

theorem ElementKind.oneLine_symbol (k : ElementKind) : OneLine (String.singleton k.symbol) := by
  cases k <;> decide

theorem ClassRef.oneLine_label {n : ClassNode} (h : n.Unbroken) : OneLine (ofNode n).label := by
  rw [label]
  simp only [oneLine_append]
  exact ⟨⟨⟨by decide, ElementKind.oneLine_symbol _⟩, by decide⟩, h.shortName⟩

namespace HierarchyView

theorem oneLine_line {n : ClassNode} (h : n.Unbroken) (count : Nat) : OneLine (line (.ofNode n) count) := by
  have hline : OneLine (ClassRef.ofNode n).line := by
    unfold ClassRef.line
    split
    · exact ClassRef.oneLine_label h
    · exact oneLine_append.2 ⟨ClassRef.oneLine_label h, by decide⟩
  unfold line
  split
  · exact hline
  · simp only [oneLine_append]
    exact ⟨⟨⟨hline, by decide⟩, oneLine_repr count⟩, by decide⟩

/-- Every line begins with a badge. -/
theorem head?_line (ref : ClassRef) (count : Nat) : (line ref count).toList.head? = some '[' := by
  unfold line ClassRef.line ClassRef.label
  split <;> split <;> simp

theorem indentation_indented (depth : Nat) (ref : ClassRef) (count : Nat) :
    indentation (indented depth (line ref count)) = 2 * depth := by
  obtain ⟨label, hlabel⟩ := List.head?_eq_some_iff.1 (head?_line ref count)
  rw [indentation, indented, repeated, String.toList_append, String.toList_ofList, hlabel,
    List.takeWhile_append_of_pos (by simp)]
  simp

theorem indentations (vs : List HierarchyView) :
    (lines vs).map indentation = (outlinesAt 0 vs).map (2 * ·.1) := by
  rw [lines, List.map_map]
  exact List.map_congr_left fun ⟨depth, ref, count⟩ _ => indentation_indented depth ref count

/-- How an entry of an outline is printed: two spaces for each level, the badge and the name of the class, a note if it
is not processed, and the number of classes below it in brackets, unless there are none. -/
def Prints : Nat × ClassRef × Nat → String → Prop
  | (depth, ref, count), line => ∃ text : String,
    (ref.processed = true → text = ref.label) ∧
    (ref.processed = false → text = ref.label ++ " (unprocessed)") ∧
    (count = 0 → line = String.ofList (List.replicate (2 * depth) ' ') ++ text) ∧
    (count ≠ 0 → line = String.ofList (List.replicate (2 * depth) ' ') ++ (text ++ " (" ++ toString count ++ ")"))

theorem prints_indented (depth : Nat) (ref : ClassRef) (count : Nat) :
    Prints (depth, ref, count) (indented depth (line ref count)) := by
  refine ⟨ref.line, fun processed => ?_, fun unprocessed => ?_, fun hzero => ?_, fun hcount => ?_⟩
  · rw [ClassRef.line, if_pos processed]
  · rw [ClassRef.line, if_neg (by simp [unprocessed])]
  · rw [line, if_pos hzero]
    rfl
  · rw [line, if_neg hcount]
    rfl

theorem prints_lines (vs : List HierarchyView) : List.Forall₂ Prints (outlinesAt 0 vs) (lines vs) :=
  List.forall₂_map_right_iff.2 (List.forall₂_same.2 fun ⟨depth, ref, count⟩ _ => prints_indented depth ref count)

mutual

/-- Every line is about a class of the model. -/
theorem ref_outlineAt (m : ClassModel) (d : Nat) :
    ∀ t, ∀ line ∈ outlineAt d (ofTree m t), ∃ h, line.2.1 = .ofNode (m.classAt h)
  | ⟨h, count, children⟩ => by
    rw [ofTree, outlineAt]
    exact List.forall_mem_cons.2 ⟨⟨h, rfl⟩, ref_outlinesAt m (d + 1) children⟩

theorem ref_outlinesAt (m : ClassModel) (d : Nat) :
    ∀ ts, ∀ line ∈ outlinesAt d (ofTrees m ts), ∃ h, line.2.1 = .ofNode (m.classAt h)
  | [] => by simp [ofTrees]
  | t :: ts => by
    rw [ofTrees, outlinesAt]
    exact List.forall_mem_append.2 ⟨ref_outlineAt m d t, ref_outlinesAt m d ts⟩

end

theorem oneLine_lines {m : ClassModel} (hm : ∀ n ∈ m.classes, n.Unbroken) (ts : List HierarchyTree) :
    ∀ line ∈ lines (ofTrees m ts), OneLine line := by
  refine List.forall_mem_map.2 fun ⟨depth, ref, count⟩ hmem => ?_
  obtain ⟨h, hn⟩ := ref_outlinesAt m 0 ts _ hmem
  obtain rfl : ref = .ofNode (m.classAt h) := hn
  refine oneLine_append.2 ⟨oneLine_repeated _, oneLine_line ?_ count⟩
  by_cases hh : h < m.size
  · exact hm _ (ClassModel.mem_classes.2 ⟨h, hh, rfl⟩)
  · rw [ClassModel.classAt_of_size_le (Nat.le_of_not_lt hh)]
    exact ⟨oneLine_empty, List.forall_mem_nil _⟩

theorem sameShape_of_lines {vs ws : List HierarchyView} (h : lines vs = lines ws) : SameShape vs ws := by
  have hdepths : ((outlinesAt 0 vs).map (·.1)).map (2 * ·) = ((outlinesAt 0 ws).map (·.1)).map (2 * ·) := by
    rw [List.map_map, List.map_map]
    exact (indentations vs).symm.trans ((congrArg (List.map indentation) h).trans (indentations ws))
  exact sameShape_of_depths 0 vs ws ((mul_right_injective₀ two_ne_zero).list_map hdepths)

end HierarchyView

namespace Engine

variable {path : String} {file : FileText} {policy : Policy} {e : Engine}

theorem hierarchy_eq_ok (hm : e.model.WellFormed) (root : Option String)
    (known : ∀ id ∈ root, id ∈ e.classes.ids) : ∃ hs : List Handle,
    e.hierarchy root = .ok (HierarchyView.ofTrees e.model (hs.map e.model.hierarchy)) := by
  cases root with
  | none => exact ⟨e.model.roots, rfl⟩
  | some id =>
    obtain ⟨h, hfound⟩ := (mem_ids_iff hm).1 (known id rfl)
    refine ⟨[h], ?_⟩
    rw [hierarchy, lookup, hfound]
    rfl

/-- The hierarchy is printed as the lines of its outline, two spaces further in for each level, and every line counts
those below it. From the lines alone the shape of the forest is known. -/
theorem hierarchy_printed (loaded : load path file policy = .ok e) (unbroken : ∀ n ∈ e.model.classes, n.Unbroken)
    (root : Option String) (known : ∀ id ∈ root, id ∈ e.classes.ids) : ∃ roots outline text,
    e.hierarchy root = .ok roots ∧ (Command.hierarchy root).run e false = .printed text ∧
    HierarchyView.Outlines roots outline ∧
    text = textOfLines (linesOf text) ∧
    List.Forall₂ HierarchyView.Prints outline (linesOf text) ∧
    (linesOf text).map indentation = outline.map (2 * ·.1) ∧
    ∀ others, HierarchyView.lines others = linesOf text → HierarchyView.SameShape roots others := by
  obtain ⟨_, s, stats, -, -, hbuild⟩ := loadModel_eq_ok_iff.1 (load_eq_ok_iff.1 loaded).1
  have hm : e.model.WellFormed := (Snapshot.built_of_build hbuild).assembled.wellFormed
  obtain ⟨hs, hroots⟩ := hierarchy_eq_ok hm root known
  have hunbroken := HierarchyView.oneLine_lines unbroken (hs.map e.model.hierarchy)
  have htallied := HierarchyView.tallied_hierarchies e.model hs
  generalize HierarchyView.ofTrees e.model (hs.map e.model.hierarchy) = roots at hroots hunbroken htallied
  have hlines := linesOf_textOfLines hunbroken
  refine ⟨roots, _, textOfLines (HierarchyView.lines roots), hroots, ?_, HierarchyView.outlines htallied, ?_, ?_, ?_,
    fun others hothers => ?_⟩
  · rw [Command.run, hroots]
    rfl
  · exact congrArg textOfLines hlines.symm
  · rw [hlines]
    exact HierarchyView.prints_lines _
  · exact (congrArg (List.map indentation) hlines).trans (HierarchyView.indentations _)
  · exact HierarchyView.sameShape_of_lines (hothers.trans hlines).symm

/-- The classes `B` and `D` below a class `A` that is not declared, `C` below `B`, and `E` by itself. -/
def lineage : FileText := .ok ("[[[\"p.B\",\"\",\"CLASS\",\"PUBLIC\",[],[],[[\"q.T\",[[\"r.V\"]]]],\"A\"]," ++
  "[\"C\",\"\",\"CLASS\",\"PUBLIC\",[],[],[],\"p.B\"],[\"D\",\"\",\"CLASS\",\"PUBLIC\",[],[],[],\"A\"],[\"E\"]]]")

/-- The lines below `A`, of which the first counts the other three; `E` is not among them. -/
theorem hierarchy_printed_lineage : ∃ e roots outline, load "zoo.json" lineage .byName = .ok e ∧
    (∀ n ∈ e.model.classes, n.Unbroken) ∧ (∀ id ∈ some "A", id ∈ e.classes.ids) ∧
    e.hierarchy (some "A") = .ok roots ∧ HierarchyView.Outlines roots outline ∧
    ((Command.hierarchy (some "A")).run e false).standardOutput =
      "[C] A (unprocessed) (3)\n  [C] B<T extends V> (1)\n    [C] C\n  [C] D\n" ∧
    outline.map (2 * ·.1) = [0, 2, 4, 2] ∧
    ∀ others, HierarchyView.lines others =
        ["[C] A (unprocessed) (3)", "  [C] B<T extends V> (1)", "    [C] C", "  [C] D"] →
      HierarchyView.SameShape roots others := by
  have heval : (load "zoo.json" lineage .byName).toOption.map (fun e =>
      (e.classes.ids, decide (∀ n ∈ e.model.classes, n.Unbroken),
        ((Command.hierarchy (some "A")).run e false).standardOutput)) =
      some (["A", "p.B", "C", "D", "E"], true,
        "[C] A (unprocessed) (3)\n  [C] B<T extends V> (1)\n    [C] C\n  [C] D\n") := by
    decide +kernel
  cases loaded : load "zoo.json" lineage .byName with
  | error failure =>
    rw [loaded] at heval
    cases heval
  | ok e =>
    rw [loaded] at heval
    obtain ⟨hids, htail⟩ := Prod.mk.inj (Option.some.inj heval)
    obtain ⟨hunbroken, houtput⟩ := Prod.mk.inj htail
    have unbroken : ∀ n ∈ e.model.classes, n.Unbroken := of_decide_eq_true hunbroken
    have known : ∀ id ∈ some "A", id ∈ e.classes.ids := by simp [hids]
    obtain ⟨roots, outline, text, hroots, hprinted, houtlines, -, -, hindent, hshape⟩ :=
      hierarchy_printed loaded unbroken (some "A") known
    have htext : text = "[C] A (unprocessed) (3)\n  [C] B<T extends V> (1)\n    [C] C\n  [C] D\n" := by
      rw [← houtput, hprinted]
      rfl
    subst htext
    exact ⟨e, roots, outline, rfl, unbroken, known, hroots, houtlines, houtput,
      hindent.symm.trans (by decide +kernel), fun others hothers => hshape others (hothers.trans (by decide +kernel))⟩

end Engine

end ClassAtlas
