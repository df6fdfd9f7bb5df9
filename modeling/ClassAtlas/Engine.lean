import ClassAtlas.Build
import ClassAtlas.Snapshot.Json
import ClassAtlas.Text.Utf8
import ClassAtlas.View.Answers
import ClassAtlas.View.Tree

/-!
Engines: a model with the path of the snapshot it came from. An engine answers queries about its model,
and can replace the model by a new reading of the snapshot; when that fails it keeps the one it has.
What the file holds at the time is given to it.
-/

namespace ClassAtlas

/-- Why a file has no text. -/
inductive ReadFailure
  | notFound
  | isDirectory
  | notDirectory
  | notText
deriving DecidableEq

def ReadFailure.message : ReadFailure → String
  | notFound => "No such file or directory (os error 2)"
  | isDirectory => "Is a directory (os error 21)"
  | notDirectory => "Not a directory (os error 20)"
  | notText => "stream did not contain valid UTF-8"

/-- What a file holds: its text, unless it cannot be read. -/
abbrev FileText := Except ReadFailure String

/-- The text in the bytes of a file. -/
def FileText.ofBytes (content : List UInt8) : FileText :=
  match Utf8.text? content with
  | some text => .ok text
  | none => .error .notText

inductive LoadFailure
  | unreadable (path : String) (reason : ReadFailure)
  | malformed (path : String) (fault : Fault)
  | unbuildable (path : String) (reason : BuildFailure)

namespace LoadFailure

/-- The causes of a failure, outermost first. -/
def chain : LoadFailure → List String
  | unreadable path reason => ["Failed to read snapshot file: " ++ path, reason.message]
  | malformed path fault => ["Failed to parse snapshot file: " ++ path, fault.message]
  | unbuildable path reason => ("Failed to build class model from " ++ path) :: reason.chain

def message (f : LoadFailure) : String := ": ".intercalate f.chain

end LoadFailure

/-- The snapshot in a file. -/
def loadSnapshot (path : String) (file : FileText) : Except LoadFailure Snapshot :=
  match file with
  | .error reason => .error (.unreadable path reason)
  | .ok text => (Snapshot.parse text).mapError (.malformed path)

/-- The finished model of the snapshot in a file. -/
def loadModel (path : String) (file : FileText) (policy : Policy) : Except LoadFailure ClassModel := do
  let snapshot ← loadSnapshot path file
  let (model, _) ← (snapshot.build policy).mapError (.unbuildable path)
  return model

/-- A query for a class that the model does not have. -/
structure ClassNotFound where
  id : String
deriving DecidableEq

def ClassNotFound.message (e : ClassNotFound) : String := "Class not found: " ++ e.id

structure Engine where
  path : String
  model : ClassModel

namespace Engine

def load (path : String) (file : FileText) (policy : Policy) : Except LoadFailure Engine :=
  (loadModel path file policy).map (⟨path, ·⟩)

def policy (e : Engine) : Policy := e.model.policy

def health (e : Engine) : Health :=
  let processed := (e.model.classes.filter (·.isProcessed)).length
  { snapshotPath := e.path
    ordering := e.policy.name
    classCount := e.model.size
    processedCount := processed
    placeholderCount := e.model.size - processed }

/-- Reads the snapshot again; on failure the engine stays as it is. -/
def reload (e : Engine) (file : FileText) : Engine × Except LoadFailure Health :=
  match load e.path file e.policy with
  | .ok e => (e, .ok e.health)
  | .error failure => (e, .error failure)

def classes (e : Engine) : ClassList :=
  let items := (e.model.sortHandles e.model.handles).map fun h => .ofNode (e.model.classAt h)
  ⟨items, items.length⟩

def lookup (e : Engine) (id : String) : Except ClassNotFound Handle :=
  match e.model.handle? id with
  | some h => .ok h
  | none => .error ⟨id⟩

/-- The hierarchy below a class, or below every root. -/
def hierarchy (e : Engine) (root : Option String) : Except ClassNotFound (List HierarchyView) :=
  match root with
  | none => .ok (HierarchyView.ofTrees e.model e.model.forest)
  | some id => (e.lookup id).map fun h => [.ofTree e.model (e.model.hierarchy h)]

def members (e : Engine) (id : String) : Except ClassNotFound TreeView :=
  (e.lookup id).map e.model.treeView

def uml (e : Engine) (id : String) : Except ClassNotFound UmlTable :=
  (e.lookup id).map e.model.umlTable

def summary (e : Engine) (id : String) : Except ClassNotFound SummaryView :=
  (e.lookup id).map fun h => .ofNode (e.model.classAt h)

end Engine

end ClassAtlas
