import ClassAtlas.Command.Arguments
import ClassAtlas.Command.Host
import ClassAtlas.Command.Report

/-!
Running a command. The ordering is looked up first, then the snapshot is loaded, then the command is
carried out; the first failure is reported with its causes.
-/

namespace ClassAtlas

inductive Outcome
  | printed (text : String)
  /-- A failure and its causes, outermost first. -/
  | failed (chain : List String)
  /-- Arguments that make no invocation. -/
  | misused
  /-- Requests to this address are to be answered by the engine. -/
  | listening (engine : Engine) (host : String) (port : Nat)

/-- An answer in both of its written forms. -/
structure Answer where
  lines : List String
  json : Json

def textOfLines (lines : List String) : String := String.join (lines.map (· ++ "\n"))

def Answer.print (json : Bool) (a : Answer) : String :=
  if json then a.json.pretty ++ "\n" else textOfLines a.lines

namespace Outcome

/-- The text of a cause after its number; its further lines are moved in as far as the first. -/
def causeText (number : String) (further : String) (cause : String) : String :=
  number ++ String.join (cause.toList.map fun c =>
    if c = '\n' then "\n" ++ further else String.singleton c)

/-- The causes of a failure, with numbers if there are several. -/
def causes : List String → List String
  | [] => []
  | [cause] => ["", "Caused by:", causeText "    " "    " cause]
  | several =>
    ["", "Caused by:"] ++ several.zipIdx.map fun (cause, i) =>
      causeText (Report.repeated ' ' (5 - (toString i).length) ++ toString i ++ ": ") "       " cause

/-- What is printed on a failure. -/
def failureText : List String → String
  | [] => ""
  | top :: rest => textOfLines (("Error: " ++ top) :: causes rest)

def exitCode : Outcome → Nat
  | printed _ | listening .. => 0
  | failed _ => 1
  | misused => 2

def standardOutput : Outcome → String
  | printed text => text
  | _ => ""

def standardError : Outcome → String
  | failed chain => failureText chain
  | _ => ""

/-- The outcome of a query. -/
def ofAnswer (json : Bool) : Except ClassNotFound Answer → Outcome
  | .ok answer => .printed (answer.print json)
  | .error e => .failed [e.message]

end Outcome

/-- Carries out a command on an engine. -/
def Command.run (c : Command) (e : Engine) (json : Bool) : Outcome :=
  match c with
  | classes => .ofAnswer json (.ok ⟨e.classes.lines, e.classes.toJson⟩)
  | hierarchy root =>
    .ofAnswer json ((e.hierarchy root).map fun v => ⟨HierarchyView.lines v, HierarchyView.rootsJson v⟩)
  | members id => .ofAnswer json ((e.members id).map fun v => ⟨v.lines, v.toJson⟩)
  | uml id => .ofAnswer json ((e.uml id).map fun v => ⟨v.lines, v.toJson⟩)
  | summary id => .ofAnswer json ((e.summary id).map fun v => ⟨v.lines, v.toJson⟩)
  | check => .ofAnswer json (.ok ⟨e.health.lines, e.health.toJson⟩)
  | serve host port =>
    if Host.isAddress host.toList then .listening e host port
    else .failed ["invalid socket address syntax"]

/-- Runs an invocation, given what its snapshot file holds. -/
def Invocation.run (i : Invocation) (file : FileText) : Outcome :=
  match Policy.named i.order with
  | .error unknown => .failed [unknown.message]
  | .ok policy =>
    match Engine.load i.snapshot file policy with
    | .error failure => .failed failure.chain
    | .ok engine => i.command.run engine i.json

/-- Runs a command line, given what the files hold. -/
def runArguments (read : String → FileText) (arguments : List String) : Outcome :=
  match Invocation.ofArguments? arguments with
  | none => .misused
  | some i => i.run (read i.snapshot)

end ClassAtlas
