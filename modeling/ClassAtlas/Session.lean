import ClassAtlas.Engine

/-!
Sessions: an engine in use while the snapshot file it was loaded from changes. Queries and their answers
are values here, and so is what happens to a session. A model taken from the engine is kept beside it and
asked like one.
-/

namespace ClassAtlas

structure Session where
  engine : Engine
  /-- What the snapshot file holds. -/
  file : FileText
  /-- The models taken, in order. -/
  held : List ClassModel

namespace Session

inductive Query
  | health
  | classes
  | hierarchy (root : Option String)
  | members (id : String)
  | uml (id : String)
  | summary (id : String)

inductive Answer
  | health (health : Health)
  | classes (classes : ClassList)
  | hierarchy (roots : Except ClassNotFound (List HierarchyView))
  | members (tree : Except ClassNotFound TreeView)
  | uml (table : Except ClassNotFound UmlTable)
  | summary (counts : Except ClassNotFound SummaryView)

def Query.answer (e : Engine) : Query → Answer
  | health => .health e.health
  | classes => .classes e.classes
  | hierarchy root => .hierarchy (e.hierarchy root)
  | members id => .members (e.members id)
  | uml id => .uml (e.uml id)
  | summary id => .summary (e.summary id)

inductive Event
  /-- The file comes to hold something else, or can no longer be read. -/
  | change (file : FileText)
  | reload
  | ask (query : Query)
  /-- The model of the engine is taken. -/
  | hold
  /-- The model that was taken as the `index`-th is asked, counted from zero. -/
  | askHeld (index : Nat) (query : Query)

/-- What an event comes to. -/
inductive Report
  | changed
  | reloaded (outcome : Except LoadFailure Health)
  | answered (answer : Answer)
  | held
  | nothingHeld

/-- A reload that failed. -/
def Report.isFailure : Report → Bool
  | reloaded (.error _) => true
  | _ => false

/-- A session begins with an engine loaded from the file as it is. -/
def start (path : String) (file : FileText) (policy : Policy) : Except LoadFailure Session :=
  (Engine.load path file policy).map (⟨·, file, []⟩)

def step (s : Session) : Event → Session × Report
  | .change file => ({ s with file := file }, .changed)
  | .reload =>
    let (engine, outcome) := s.engine.reload s.file
    ({ s with engine := engine }, .reloaded outcome)
  | .ask query => (s, .answered (query.answer s.engine))
  | .hold => ({ s with held := s.held ++ [s.engine.model] }, .held)
  | .askHeld index query =>
    match s.held[index]? with
    | none => (s, .nothingHeld)
    | some model => (s, .answered (query.answer ⟨s.engine.path, model⟩))

/-- The session after some events, and their reports in order. -/
def run (s : Session) : List Event → Session × List Report
  | [] => (s, [])
  | event :: events =>
    let (s, report) := s.step event
    let (s, reports) := s.run events
    (s, report :: reports)

end Session

end ClassAtlas
