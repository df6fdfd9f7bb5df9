import ClassAtlas.Http.Router
import ClassAtlas.Proofs.Arena
import ClassAtlas.Proofs.Sessions
import ClassAtlas.Proofs.Unfolding

/-! An engine that was loaded answers what it is asked about the classes that it lists, and about no others
(`load_answers`). The list holds the classes of the arena, and the index leads to these and no others. For each of
them the look-ups of an answer succeed, and working its hierarchy out ends because a snapshot with a cycle does not
load. The router passes the answers on. -/

namespace ClassAtlas

def ClassList.ids (l : ClassList) : List String := l.items.map (·.id)

theorem Snapshot.acyclic_of_build {policy : Policy} {s : Snapshot} {m : ClassModel} {stats : BuildStats}
    (h : s.build policy = .ok (m, stats)) : m.Acyclic := by
  have hno := ((build_ok_iff policy s).1 ⟨_, h⟩).2
  intro c hc
  obtain ⟨id, hid⟩ := (built_of_build h).assembled.cyclic_iff.1 ⟨c, hc⟩
  exact hno id hid

namespace Engine

/-- The four questions about a class are answered under its id. The answers come from guarded look-ups, and the
hierarchy among them is all there is. -/
structure Answers (e : Engine) (id : String) (h : Handle) : Prop where
  members : ∃ t, Guarded.memberTree e.model h = some t ∧ e.members id = .ok (.ofTree e.model t)
  uml : ∃ t, Guarded.umlTable e.model h = some t ∧ e.uml id = .ok t
  summary : ∃ counts, Guarded.summary e.model h = some counts ∧
    e.summary id = .ok ⟨id, (e.model.classAt h).umlName, counts⟩
  hierarchy : ∃ t, e.model.Unfolds h t ∧ Guarded.hierarchyTo e.model e.model.size h = some t ∧
    e.hierarchy (some id) = .ok [.ofTree e.model t]

/-- None of the four questions is answered. -/
structure Refuses (e : Engine) (id : String) : Prop where
  members : e.members id = .error ⟨id⟩
  uml : e.uml id = .error ⟨id⟩
  summary : e.summary id = .error ⟨id⟩
  hierarchy : e.hierarchy (some id) = .error ⟨id⟩

/-- The list shows the classes at these places, each place once. -/
structure Lists (e : Engine) (hs : List Handle) : Prop where
  places : hs.Perm (List.range e.model.size)
  items : e.classes.items = hs.map fun h => .ofNode (e.model.classAt h)
  distinct : e.classes.ids.Nodup

/-- The list and the health report count alike. -/
structure Tallies (e : Engine) : Prop where
  total : e.classes.total = e.classes.items.length
  classes : e.classes.total = e.health.classCount
  halves : e.health.classCount = e.health.processedCount + e.health.placeholderCount
  placeholders : e.health.placeholderCount = e.classes.items.countP fun c => !c.processed

variable {e : Engine} {id : String} {h : Handle}

section WellFormed

variable (hm : e.model.WellFormed)

include hm

/-- The list shows the classes of the arena in another order. -/
theorem items_perm : e.classes.items.Perm (e.model.classes.map .ofNode) := by
  have hsorted := (sortBy_perm e.model.compare e.model.handles).map fun h => ClassRef.ofNode (e.model.classAt h)
  rw [ClassModel.classes_eq, List.map_map, ← ClassModel.handles_eq_range hm.toClosed]
  exact hsorted

theorem ids_perm : e.classes.ids.Perm (e.model.classes.map (·.id)) := by
  have hids := (items_perm hm).map (·.id)
  rwa [List.map_map] at hids

theorem mem_ids_iff : id ∈ e.classes.ids ↔ ∃ h, e.model.handle? id = some h := by
  rw [(ids_perm hm).mem_iff, List.mem_map]
  constructor
  · rintro ⟨n, hn, hid⟩
    obtain ⟨h, hh, rfl⟩ := ClassModel.mem_classes.1 hn
    exact ⟨h, (ClassModel.handle?_eq_some_iff hm).2 ⟨hh, hid⟩⟩
  · rintro ⟨h, hfound⟩
    obtain ⟨hh, hid⟩ := (ClassModel.handle?_eq_some_iff hm).1 hfound
    exact ⟨e.model.classAt h, ClassModel.mem_classes.2 ⟨h, hh, rfl⟩, hid⟩

theorem lists : e.Lists (e.model.sortHandles e.model.handles) where
  places := by
    have hsorted := sortBy_perm e.model.compare e.model.handles
    rwa [ClassModel.handles_eq_range hm.toClosed] at hsorted ⊢
  items := rfl
  distinct := (ids_perm hm).nodup_iff.2 hm.sealed.ids

theorem tallies : e.Tallies where
  total := rfl
  classes := by
    change e.classes.items.length = e.model.size
    rw [(items_perm hm).length_eq, List.length_map]
    rfl
  halves := (Nat.add_sub_cancel' (List.length_filter_le _ _)).symm
  placeholders := by
    have hsplit := List.length_eq_countP_add_countP ClassNode.isProcessed (l := e.model.classes)
    rw [(items_perm hm).countP_eq, List.countP_map]
    change e.model.classes.length - (e.model.classes.filter (·.isProcessed)).length = _
    rw [hsplit, ← List.countP_eq_length_filter, Nat.add_sub_cancel_left]
    refine List.countP_congr fun n _ => ?_
    simp [ClassRef.ofNode]

/-- Under a strict policy the places are listed in strictly increasing order. -/
theorem increasing_handles (hs : e.policy.Strict) :
    (e.model.sortHandles e.model.handles).Pairwise fun a b => e.model.compare a b = .lt := by
  have hplaces := (lists hm).places
  refine ClassModel.increasing_of_ascending hm hs (ClassModel.ascending_sortHandles hs.trans _)
    (hplaces.nodup_iff.2 List.nodup_range) fun x hx => ?_
  exact List.mem_range.1 (hplaces.mem_iff.1 hx)

theorem answers (ha : e.model.Acyclic) (hfound : e.model.handle? id = some h) : e.Answers id h := by
  obtain ⟨hh, hid⟩ := (ClassModel.handle?_eq_some_iff hm).1 hfound
  have hlookup : e.lookup id = .ok h := by rw [lookup, hfound]
  have hg := hm.guards
  refine ⟨⟨_, hg.memberTree h hh, ?_⟩, ⟨_, hg.umlTable h hh, ?_⟩, ⟨_, hg.summary h hh, ?_⟩,
    ⟨_, (ClassModel.unfolds_iff hm ha).2 rfl, hg.hierarchy h hh _, ?_⟩⟩
  · rw [members, hlookup]
    rfl
  · rw [uml, hlookup]
    rfl
  · rw [summary, hlookup, ← hid]
    rfl
  · rw [hierarchy, hlookup]
    rfl

end WellFormed

theorem refuses (hnone : e.model.handle? id = none) : e.Refuses id := by
  have hlookup : e.lookup id = .error ⟨id⟩ := by rw [lookup, hnone]
  refine ⟨?_, ?_, ?_, ?_⟩
  · rw [members, hlookup]
    rfl
  · rw [uml, hlookup]
    rfl
  · rw [summary, hlookup]
    rfl
  · rw [hierarchy, hlookup]
    rfl

end Engine

namespace Http

theorem Response.found_map {α : Type} (write : α → Json) (x : Except ClassNotFound α) :
    found write x = found (fun j => j) (x.map write) := by
  cases x <;> rfl

/-- The questions about one class. -/
inductive Topic
  | members
  | uml
  | summary
  | hierarchy

namespace Topic

def route : Topic → Route
  | members => .members
  | uml => .uml
  | summary => .summary
  | hierarchy => .hierarchy

/-- The key of the query string that names the class. -/
def key : Topic → String
  | hierarchy => "root"
  | _ => "class"

/-- The answer of an engine in its JSON form. -/
def ask (e : Engine) (id : String) : Topic → Except ClassNotFound Json
  | members => (e.members id).map TreeView.toJson
  | uml => (e.uml id).map UmlTable.toJson
  | summary => (e.summary id).map SummaryView.toJson
  | hierarchy => (e.hierarchy (some id)).map HierarchyView.rootsJson

/-- A target that asks about the class of an id, once decoded. -/
structure Asks (topic : Topic) (target id : String) : Prop where
  path : Route.ofPath? (splitTarget target).1 = some topic.route
  query : Query.value? topic.key (Query.pairs (splitTarget target).2) = .ok (some id)

variable {topic : Topic} {target id : String} {e : Engine}

theorem answer_route {query : List Char} (hid : Query.value? topic.key (Query.pairs query) = .ok (some id)) :
    answer e query topic.route = .found (fun j => j) (topic.ask e id) := by
  cases topic with
  | hierarchy =>
    change Query.value? "root" (Query.pairs query) = _ at hid
    rw [route, answer, hid, ask, ← Response.found_map]
  | _ =>
    change Query.value? "class" (Query.pairs query) = _ at hid
    simp only [route, answer, aboutClass, Query.value, hid, bind, Except.bind, ask, ← Response.found_map]

/-- The router asks the engine, which stays as it is. -/
theorem serve_of_asks (hasks : topic.Asks target id) (now : FileText) :
    serve e now { target := target } = (e, .found (fun j => j) (topic.ask e id)) ∧
    serve e now { method := "HEAD", target := target } =
      (e, (Response.found (fun j => j) (topic.ask e id)).headOnly) := by
  simp only [serve, hasks.path, ← answer_route hasks.query]
  cases topic <;> simp [route]

end Topic

end Http

section Topics

variable {e : Engine} {id : String} {h : Handle}

theorem Engine.Answers.ask (hanswers : e.Answers id h) (topic : Http.Topic) :
    ∃ answer, topic.ask e id = .ok answer := by
  obtain ⟨⟨tree, -, hmembers⟩, ⟨table, -, huml⟩, ⟨counts, -, hsummary⟩, ⟨below, -, -, hhierarchy⟩⟩ := hanswers
  cases topic with
  | members => exact ⟨_, by rw [Http.Topic.ask, hmembers, Except.map]⟩
  | uml => exact ⟨_, by rw [Http.Topic.ask, huml, Except.map]⟩
  | summary => exact ⟨_, by rw [Http.Topic.ask, hsummary, Except.map]⟩
  | hierarchy => exact ⟨_, by rw [Http.Topic.ask, hhierarchy, Except.map]⟩

theorem Engine.Refuses.ask (hrefuses : e.Refuses id) (topic : Http.Topic) : topic.ask e id = .error ⟨id⟩ := by
  cases topic with
  | members => rw [Http.Topic.ask, hrefuses.members, Except.map]
  | uml => rw [Http.Topic.ask, hrefuses.uml, Except.map]
  | summary => rw [Http.Topic.ask, hrefuses.summary, Except.map]
  | hierarchy => rw [Http.Topic.ask, hrefuses.hierarchy, Except.map]

end Topics

namespace Engine

variable {path : String} {file : FileText} {policy : Policy} {e : Engine}

/-- An id is listed and answered about, over HTTP with status 200, or it is neither, and its status is 404. Under the
named policies the list is in order. -/
theorem load_answers (loaded : load path file policy = .ok e) :
    (∀ id, (id ∈ e.classes.ids ∧ ∃ h, e.model.handle? id = some h ∧ e.Answers id h) ∨
      (id ∉ e.classes.ids ∧ e.Refuses id)) ∧
    (∃ hs, e.Lists hs ∧
      (policy = .byKind ∨ policy = .byName → hs.Pairwise fun a b => e.model.compare a b = .lt)) ∧
    e.Tallies ∧
    ∀ (topic : Http.Topic) target id, topic.Asks target id → ∃ r : Http.Response,
      (∀ now, Http.serve e now { target := target } = (e, r) ∧
        Http.serve e now { method := "HEAD", target := target } = (e, r.headOnly)) ∧
      ((id ∈ e.classes.ids ∧ ∃ answer, topic.ask e id = .ok answer ∧ r = .of 200 (.json answer)) ∨
        (id ∉ e.classes.ids ∧ r = .of 404 (.json (.object [("error", .string ("Class not found: " ++ id))])))) := by
  obtain ⟨_, s, stats, -, -, hbuild⟩ := loadModel_eq_ok_iff.1 (load_eq_ok_iff.1 loaded).1
  have hm : e.model.WellFormed := (Snapshot.built_of_build hbuild).assembled.wellFormed
  have ha : e.model.Acyclic := Snapshot.acyclic_of_build hbuild
  have hask (id : String) : (id ∈ e.classes.ids ∧ ∃ h, e.model.handle? id = some h ∧ e.Answers id h) ∨
      (id ∉ e.classes.ids ∧ e.Refuses id) := by
    rw [mem_ids_iff hm]
    cases hid : e.model.handle? id with
    | none => exact Or.inr ⟨by simp, refuses hid⟩
    | some h => exact Or.inl ⟨⟨h, rfl⟩, h, rfl, answers hm ha hid⟩
  refine ⟨hask, ⟨_, lists hm, fun hpolicy => increasing_handles hm ?_⟩, tallies hm, fun topic target id hasks =>
    ⟨_, fun now => Http.Topic.serve_of_asks hasks now, ?_⟩⟩
  · rw [policy_of_load loaded]
    rcases hpolicy with rfl | rfl
    exacts [Policy.byKind_strict, Policy.byName_strict]
  · rcases hask id with ⟨hin, h, -, hanswers⟩ | ⟨hout, hrefuses⟩
    · obtain ⟨answer, hanswer⟩ := hanswers.ask topic
      refine Or.inl ⟨hin, answer, hanswer, ?_⟩
      rw [hanswer]
      rfl
    · refine Or.inr ⟨hout, ?_⟩
      rw [hrefuses.ask topic]
      rfl

/-- A class `B` below a class `A` that is not declared. -/
def orphaned : FileText := .ok "[[[\"B\",\"\",\"CLASS\",\"PUBLIC\",[],[],[],\"A\"]]]"

/-- The placeholder is listed and answered about too. The `C` of the last target, an escape, is not a class. -/
theorem load_answers_orphaned : ∃ e, load "zoo.json" orphaned .byName = .ok e ∧ e.classes.ids = ["A", "B"] ∧
    e.health.placeholderCount = 1 ∧ (∃ h, e.model.handle? "A" = some h ∧ e.Answers "A" h) ∧ e.Refuses "C" ∧
    (∃ hs, e.Lists hs ∧ hs.Pairwise fun a b => e.model.compare a b = .lt) ∧ e.Tallies ∧
    (∃ answer, (Http.serve e orphaned { target := "/hierarchy?depth=1&root=A" }).2 = .of 200 (.json answer)) ∧
    (Http.serve e orphaned { target := "/uml?class=%43" }).2 =
      .of 404 (.json (.object [("error", .string "Class not found: C")])) := by
  have heval : (load "zoo.json" orphaned .byName).toOption.map (fun e => (e.classes.ids, e.health.placeholderCount)) =
      some (["A", "B"], 1) := by
    decide +kernel
  cases loaded : load "zoo.json" orphaned .byName with
  | error failure =>
    rw [loaded] at heval
    cases heval
  | ok e =>
    rw [loaded] at heval
    obtain ⟨hids, hplaceholders⟩ := Prod.mk.inj (Option.some.inj heval)
    obtain ⟨hask, ⟨hs, hlists, hincreasing⟩, htallies, hserve⟩ := load_answers loaded
    have listed : "A" ∈ e.classes.ids := by simp [hids]
    have unlisted : "C" ∉ e.classes.ids := by simp [hids]
    have below : Http.Topic.Asks .hierarchy "/hierarchy?depth=1&root=A" "A" := ⟨by decide +kernel, by decide +kernel⟩
    have escaped : Http.Topic.Asks .uml "/uml?class=%43" "C" := ⟨by decide +kernel, by decide +kernel⟩
    obtain ⟨found, hfound, hA⟩ := hserve _ _ _ below
    obtain ⟨missed, hmissed, hC⟩ := hserve _ _ _ escaped
    refine ⟨e, rfl, hids, hplaceholders, ((hask "A").resolve_right fun hno => hno.1 listed).2,
      ((hask "C").resolve_left fun hyes => unlisted hyes.1).2, ⟨hs, hlists, hincreasing (Or.inr rfl)⟩, htallies, ?_, ?_⟩
    · obtain ⟨-, answer, -, rfl⟩ := hA.resolve_right fun hno => hno.1 listed
      exact ⟨answer, by rw [(hfound orphaned).1]⟩
    · obtain ⟨-, rfl⟩ := hC.resolve_left fun hyes => unlisted hyes.1
      rw [(hmissed orphaned).1]
      rfl

end Engine

end ClassAtlas
