import ClassAtlas.Proofs.OrderFree
import ClassAtlas.Session

/-! A session reports what engines loaded for each question would. Its history keeps texts and no model: what the
file holds, what it held at the last load that succeeded, and for each model taken what that was loaded from; every
answer is given by loading one of them (`History.step`). A session follows its history through every run
(`Session.run_history`), for a load keeps path and policy, and one that fails replaces nothing. Which files load is
`Engine.load_ok_iff`. -/

namespace ClassAtlas

namespace Engine

variable {path : String} {file : FileText} {policy : Policy} {e : Engine}

theorem load_eq_ok_iff : load path file policy = .ok e ↔ loadModel path file policy = .ok e.model ∧ e.path = path := by
  unfold load
  cases loadModel path file policy with
  | error f => simp [Except.map]
  | ok m =>
    obtain ⟨path', m'⟩ := e
    simp [Except.map, and_comm, eq_comm]

/-- A model is loaded by reading, parsing and building, each of which can fail. -/
theorem loadModel_eq_ok_iff {m : ClassModel} : loadModel path file policy = .ok m ↔
    ∃ text s stats, file = .ok text ∧ Snapshot.parse text = .ok s ∧ s.build policy = .ok (m, stats) := by
  unfold loadModel loadSnapshot
  cases file with
  | error reason => simp [bind, Except.bind]
  | ok text =>
    cases hparse : Snapshot.parse text with
    | error fault => simp [hparse, bind, Except.bind, Except.mapError]
    | ok s =>
      cases hbuild : s.build policy with
      | error reason => simp [hparse, hbuild, bind, Except.bind, Except.mapError]
      | ok built => simp [hparse, hbuild, bind, Except.bind, Except.mapError, pure, Except.pure, Prod.ext_iff]

/-- The files that load hold a snapshot that declares each class once and has no cycle of super types. -/
theorem load_ok_iff (path : String) (file : FileText) (policy : Policy) : (∃ e, load path file policy = .ok e) ↔
    ∃ text s, file = .ok text ∧ Snapshot.parse text = .ok s ∧ (s.classes.map (·.id)).Nodup ∧
      ∀ id, ¬ Relation.TransGen s.Extends id id := by
  simp only [load_eq_ok_iff, loadModel_eq_ok_iff, ← Snapshot.build_ok_iff policy]
  constructor
  · rintro ⟨e, ⟨text, s, stats, hfile, hparse, hbuild⟩, -⟩
    exact ⟨text, s, hfile, hparse, (e.model, stats), hbuild⟩
  · rintro ⟨text, s, hfile, hparse, ⟨m, stats⟩, hbuild⟩
    exact ⟨⟨path, m⟩, ⟨text, s, stats, hfile, hparse, hbuild⟩, rfl⟩

/-- The ordering of an engine is the one it was loaded with. -/
theorem policy_of_load (h : load path file policy = .ok e) : e.policy = policy := by
  obtain ⟨_, s, stats, -, -, hbuild⟩ := loadModel_eq_ok_iff.1 (load_eq_ok_iff.1 h).1
  exact (Snapshot.built_of_build hbuild).furnished.policy_eq

/-- An engine is reloaded with the path and the ordering that it was loaded with. -/
theorem reload_of_load (h : load path file policy = .ok e) (now : FileText) : e.reload now =
    match load path now policy with
    | .ok fresh => (fresh, .ok fresh.health)
    | .error failure => (e, .error failure) := by
  have hpath : e.path = path := (load_eq_ok_iff.1 h).2
  have hpolicy : e.policy = policy := policy_of_load h
  cases hnow : load path now policy with
  | error failure => simp only [reload, hpath, hpolicy, hnow]
  | ok fresh => simp only [reload, hpath, hpolicy, hnow]

end Engine

/-- The texts behind a session. -/
structure History where
  /-- What the file holds. -/
  file : FileText
  /-- What it held at the last load that succeeded. -/
  loaded : FileText
  /-- What the models taken were loaded from. -/
  held : List FileText
deriving DecidableEq

namespace History

section

variable (path : String) (policy : Policy)

/-- What an event reports if each answer is given by an engine that is loaded for it. -/
def step (h : History) : Session.Event → History × Except LoadFailure Session.Report
  | .change file => ({ h with file := file }, .ok .changed)
  | .reload =>
    let fresh := Engine.load path h.file policy
    ({ h with loaded := if fresh.isOk then h.file else h.loaded }, .ok (.reloaded (fresh.map Engine.health)))
  | .ask query => (h, (Engine.load path h.loaded policy).map fun e => .answered (query.answer e))
  | .hold => ({ h with held := h.held ++ [h.loaded] }, .ok .held)
  | .askHeld index query =>
    match h.held[index]? with
    | none => (h, .ok .nothingHeld)
    | some file => (h, (Engine.load path file policy).map fun e => .answered (query.answer e))

def run (h : History) : List Session.Event → History × List (Except LoadFailure Session.Report)
  | [] => (h, [])
  | event :: events =>
    let (h, report) := h.step path policy event
    let (h, reports) := h.run events
    (h, report :: reports)

end

end History

namespace Session

variable {path : String} {file : FileText} {policy : Policy} {s : Session} {h : History}

/-- The session has what the texts of the history load to. -/
structure Follows (path : String) (policy : Policy) (s : Session) (h : History) : Prop where
  file : s.file = h.file
  engine : Engine.load path h.loaded policy = .ok s.engine
  held : h.held.map (loadModel path · policy) = s.held.map .ok

theorem follows_start (hs : start path file policy = .ok s) : s.Follows path policy ⟨file, file, []⟩ := by
  unfold start at hs
  cases he : Engine.load path file policy with
  | error failure =>
    rw [he] at hs
    cases hs
  | ok e =>
    rw [he] at hs
    cases hs
    exact ⟨rfl, he, rfl⟩

/-- A model that was taken is the one that its text loads to. -/
theorem Follows.taken (hf : s.Follows path policy h) (index : Nat) :
    h.held[index]?.map (loadModel path · policy) = s.held[index]?.map .ok := by
  have hheld := congrArg (·[index]?) hf.held
  simpa using hheld

theorem Follows.step (hf : s.Follows path policy h) (event : Event) :
    (s.step event).1.Follows path policy (h.step path policy event).1 ∧
      (h.step path policy event).2 = .ok (s.step event).2 := by
  cases event with
  | change file => exact ⟨⟨rfl, hf.engine, hf.held⟩, rfl⟩
  | reload =>
    have hreload := Engine.reload_of_load hf.engine s.file
    rw [hf.file] at hreload
    cases hfresh : Engine.load path h.file policy with
    | error failure =>
      rw [hfresh] at hreload
      simp only [History.step, Session.step, hf.file, hreload, hfresh]
      exact ⟨⟨rfl, hf.engine, hf.held⟩, rfl⟩
    | ok fresh =>
      rw [hfresh] at hreload
      simp only [History.step, Session.step, hf.file, hreload, hfresh]
      exact ⟨⟨rfl, hfresh, hf.held⟩, rfl⟩
  | ask query =>
    refine ⟨hf, ?_⟩
    simp only [History.step, Session.step, hf.engine, Except.map]
  | hold =>
    refine ⟨⟨hf.file, hf.engine, ?_⟩, rfl⟩
    simp only [History.step, Session.step, List.map_append, List.map_cons, List.map_nil, hf.held,
      (Engine.load_eq_ok_iff.1 hf.engine).1]
  | askHeld index query =>
    have htaken := hf.taken index
    cases hh : h.held[index]? with
    | none =>
      cases hs : s.held[index]? with
      | none => simpa [History.step, Session.step, hh, hs] using hf
      | some m => simp [hh, hs] at htaken
    | some file =>
      cases hs : s.held[index]? with
      | none => simp [hh, hs] at htaken
      | some m =>
        have hload : loadModel path file policy = .ok m := by simpa [hh, hs] using htaken
        have hengine : Engine.load path file policy = .ok ⟨s.engine.path, m⟩ :=
          Engine.load_eq_ok_iff.2 ⟨hload, (Engine.load_eq_ok_iff.1 hf.engine).2⟩
        simpa [History.step, Session.step, hh, hs, hengine, Except.map] using hf

theorem Follows.run (hf : s.Follows path policy h) (events : List Event) :
    (s.run events).1.Follows path policy (h.run path policy events).1 ∧
      (h.run path policy events).2 = (s.run events).2.map .ok := by
  induction events generalizing s h with
  | nil => exact ⟨hf, rfl⟩
  | cons event events ih =>
    obtain ⟨hnext, hreport⟩ := hf.step event
    obtain ⟨hlast, hreports⟩ := ih hnext
    refine ⟨hlast, ?_⟩
    change (h.step path policy event).2 :: ((h.step path policy event).1.run path policy events).2 = _
    rw [hreport, hreports]
    rfl

theorem run_append (s : Session) (events later : List Event) : s.run (events ++ later) =
    (((s.run events).1.run later).1, (s.run events).2 ++ ((s.run events).1.run later).2) := by
  induction events generalizing s with
  | nil => rfl
  | cons event events ih =>
    rw [List.cons_append]
    simp only [run, ih, List.cons_append]

/-- A reload that fails changes nothing at all. -/
theorem step_reload_of_isFailure (h : (s.step .reload).2.isFailure = true) : (s.step .reload).1 = s := by
  unfold step Engine.reload at h ⊢
  cases hload : Engine.load s.engine.path s.file s.engine.policy with
  | error failure => rfl
  | ok e =>
    simp only [hload] at h
    cases h

theorem isFailure_reload_iff (hf : s.Follows path policy h) : (s.step .reload).2.isFailure = false ↔
    ∃ e, Engine.load path s.file policy = .ok e := by
  unfold step
  rw [Engine.reload_of_load hf.engine]
  cases Engine.load path s.file policy <;> simp [Report.isFailure]

/-- The reports of a session are those of its history, so each answer is that of an engine loaded from what the file
held at the last successful load, and each model taken stays the one that its text loads to. A reload succeeds if
loading the file as it is would; one that fails shows in no later report. -/
theorem run_history (hs : start path file policy = .ok s) (events : List Event) :
    let h : History := ⟨file, file, []⟩
    let now := (s.run events).1
    (h.run path policy events).2 = (s.run events).2.map .ok ∧
    now.Follows path policy (h.run path policy events).1 ∧
    ((now.step .reload).2.isFailure = false ↔ ∃ e, Engine.load path now.file policy = .ok e) ∧
    ((now.step .reload).2.isFailure = true → ∀ later,
      (s.run (events ++ later)).2 = (s.run events).2 ++ (now.run later).2 ∧
      (s.run (events ++ .reload :: later)).2 =
        (s.run events).2 ++ (now.step .reload).2 :: (now.run later).2) := by
  intro h now
  obtain ⟨hnow, hreports⟩ := (follows_start hs).run events
  refine ⟨hreports, hnow, isFailure_reload_iff hnow, fun hfailed later => ⟨?_, ?_⟩⟩
  · rw [run_append]
  · have hsame : (now.step .reload).1 = now := step_reload_of_isFailure hfailed
    rw [run_append]
    change _ ++ (now.step .reload).2 :: ((now.step .reload).1.run later).2 = _
    rw [hsame]

/-- A class `A`, in a snapshot written as arrays of fields. -/
def alone : FileText := .ok "[[[\"A\"]]]"

/-- `A` and a class `B` below it. -/
def grown : FileText := .ok "[[[\"A\"],[\"B\",\"\",\"CLASS\",\"PUBLIC\",[],[],[],\"A\"]]]"

def doubled : FileText := .ok "[[[\"A\"],[\"A\"]]]"

/-- `A` and `B`, each below the other. -/
def circular : FileText :=
  .ok "[[[\"A\",\"\",\"CLASS\",\"PUBLIC\",[],[],[],\"B\"],[\"B\",\"\",\"CLASS\",\"PUBLIC\",[],[],[],\"A\"]]]"

/-- A file gets another class, then is gone, malformed, declares a class twice and has a cycle in turn. A model is taken
before the first reload, which is the only one that succeeds, and is asked at the end. -/
def turbulent : List Event :=
  [.ask .health, .change grown, .ask .classes, .hold, .reload, .ask (.summary "A"), .change (.error .notFound), .reload,
    .change (.ok "["), .reload, .change doubled, .reload, .change circular, .ask (.hierarchy none), .askHeld 0 .classes]

theorem run_history_turbulent : ∃ s, start "zoo.json" alone .byKind = .ok s ∧
    (s.run turbulent).2.map Report.isFailure =
      [false, false, false, false, false, false, false, true, false, true, false, true, false, false, false] ∧
    (History.run "zoo.json" .byKind ⟨alone, alone, []⟩ turbulent).2 = (s.run turbulent).2.map .ok ∧
    (s.run turbulent).1.Follows "zoo.json" .byKind ⟨circular, grown, [alone]⟩ ∧
    ((s.run turbulent).1.step .reload).2.isFailure = true ∧
    ∀ later, (s.run (turbulent ++ .reload :: later)).2 =
      (s.run turbulent).2 ++ ((s.run turbulent).1.step .reload).2 :: ((s.run turbulent).1.run later).2 := by
  have heval : (start "zoo.json" alone .byKind).toOption.map (fun s =>
      ((s.run turbulent).2.map Report.isFailure, ((s.run turbulent).1.step .reload).2.isFailure)) =
      some ([false, false, false, false, false, false, false, true, false, true, false, true, false, false, false],
        true) := by
    decide +kernel
  have hlast : (History.run "zoo.json" .byKind ⟨alone, alone, []⟩ turbulent).1 = ⟨circular, grown, [alone]⟩ := by
    decide +kernel
  cases hs : start "zoo.json" alone .byKind with
  | error failure =>
    rw [hs] at heval
    cases heval
  | ok s =>
    rw [hs] at heval
    obtain ⟨hfailures, hfails⟩ := Prod.mk.inj (Option.some.inj heval)
    obtain ⟨hreports, hfollows, -, hlater⟩ := run_history hs turbulent
    rw [hlast] at hfollows
    exact ⟨s, rfl, hfailures, hreports, hfollows, hfails, fun later => (hlater hfails later).2⟩

end Session

end ClassAtlas
