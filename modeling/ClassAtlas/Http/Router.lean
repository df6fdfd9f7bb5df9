import ClassAtlas.Engine
import ClassAtlas.Http.Query

/-!
The HTTP interface of an engine: six queries that are read with GET, and a reload with POST. Answers are
JSON; a class that the model does not have is not found, and a reload that fails is a server error.
-/

namespace ClassAtlas

namespace Http

structure Request where
  method : String := "GET"
  target : String

inductive Body
  | empty
  | text (text : String)
  | json (value : Json)

namespace Body

def contentType : Body → Option String
  | empty => none
  | text _ => some "text/plain; charset=utf-8"
  | json _ => some "application/json"

end Body

structure Response where
  status : Nat
  contentType : Option String
  body : Body

namespace Response

def of (status : Nat) (body : Body) : Response := ⟨status, body.contentType, body⟩

def ok (value : Json) : Response := of 200 (.json value)

def failure (status : Nat) (message : String) : Response :=
  of status (.json (.object [("error", .string message)]))

def badQuery (fault : Fault) : Response :=
  of 400 (.text ("Failed to deserialize query string: " ++ fault.message))

/-- The answer without its body. -/
def headOnly (r : Response) : Response := { r with body := .empty }

/-- The answer to a query about a class. -/
def found {α : Type} (write : α → Json) : Except ClassNotFound α → Response
  | .ok a => ok (write a)
  | .error e => failure 404 e.message

end Response

inductive Route
  | health
  | classes
  | hierarchy
  | members
  | uml
  | summary
  | reload
deriving DecidableEq

namespace Route

def ofPath? : String → Option Route
  | "/health" => some health
  | "/classes" => some classes
  | "/hierarchy" => some hierarchy
  | "/members" => some members
  | "/uml" => some uml
  | "/summary" => some summary
  | "/reload" => some reload
  | _ => none

end Route

/-- The path of a target and its query, without a fragment. -/
def splitTarget (target : String) : String × List Char :=
  let target := target.toList.takeWhile (· ≠ '#')
  (String.ofList (target.takeWhile (· ≠ '?')), (target.dropWhile (· ≠ '?')).drop 1)

/-- The answer to a query about the class that the query string names. -/
def aboutClass {α : Type} (query : List Char) (write : α → Json)
    (ask : String → Except ClassNotFound α) : Response :=
  match Query.value "class" (Query.pairs query) with
  | .error fault => .badQuery fault
  | .ok id => .found write (ask id)

/-- The answer to a query. -/
def answer (e : Engine) (query : List Char) : Route → Response
  | .health => .ok e.health.toJson
  | .classes => .ok e.classes.toJson
  | .hierarchy =>
    match Query.value? "root" (Query.pairs query) with
    | .error fault => .badQuery fault
    | .ok root => .found HierarchyView.rootsJson (e.hierarchy root)
  | .members => aboutClass query TreeView.toJson e.members
  | .uml => aboutClass query UmlTable.toJson e.uml
  | .summary => aboutClass query SummaryView.toJson e.summary
  | .reload => .of 405 .empty

def reload (e : Engine) (file : FileText) : Engine × Response :=
  match e.reload file with
  | (e, .ok health) => (e, .ok health.toJson)
  | (e, .error failure) => (e, .failure 500 failure.message)

/-- Serves a request, given what the snapshot file holds. Any path answers a preflight request. -/
def serve (e : Engine) (file : FileText) (r : Request) : Engine × Response :=
  let (path, query) := splitTarget r.target
  if r.method = "OPTIONS" then (e, .of 200 .empty)
  else
    match Route.ofPath? path with
    | none => (e, .of 404 .empty)
    | some .reload => if r.method = "POST" then reload e file else (e, .of 405 .empty)
    | some route =>
      if r.method = "GET" then (e, answer e query route)
      else if r.method = "HEAD" then (e, (answer e query route).headOnly)
      else (e, .of 405 .empty)

end Http

end ClassAtlas
