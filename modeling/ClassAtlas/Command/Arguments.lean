import ClassAtlas.Json.Numeral

/-!
The command line: a snapshot, a command with its own options, and options that may stand on either side
of the command. An option comes at most once on a side; where one comes on both, the later counts. After
two dashes every argument is taken as it is.
-/

namespace ClassAtlas

inductive Command
  | classes
  /-- The hierarchy below a class, or below every root. -/
  | hierarchy (root : Option String)
  | members (classId : String)
  | uml (classId : String)
  | summary (classId : String)
  | check
  | serve (host : String) (port : Nat)
deriving DecidableEq

structure Invocation where
  snapshot : String
  command : Command
  order : String := "kind"
  json : Bool := false
  verbose : Bool := false
deriving DecidableEq

inductive CommandName
  | classes
  | hierarchy
  | members
  | uml
  | summary
  | check
  | serve
deriving DecidableEq

inductive OptionName
  | verbose
  | order
  | json
  | root
  | port
  | host
deriving DecidableEq

namespace OptionName

def takesValue : OptionName → Bool
  | verbose | json => false
  | _ => true

def long : OptionName → String
  | verbose => "verbose"
  | order => "order"
  | json => "json"
  | root => "root"
  | port => "port"
  | host => "host"

def short? : OptionName → Option Char
  | verbose => some 'v'
  | port => some 'p'
  | _ => none

/-- Options on either side of the command. -/
def everywhere : List OptionName := [verbose, order, json]

end OptionName

namespace CommandName

def ofText? : String → Option CommandName
  | "classes" => some classes
  | "hierarchy" => some hierarchy
  | "members" => some members
  | "uml" => some uml
  | "summary" => some summary
  | "check" => some check
  | "serve" => some serve
  | _ => none

/-- The options behind a command. -/
def options : CommandName → List OptionName
  | hierarchy => .root :: OptionName.everywhere
  | serve => .port :: .host :: OptionName.everywhere
  | _ => OptionName.everywhere

end CommandName

namespace Arguments

/-- What one argument looks like. -/
inductive Word
  | plain
  /-- Two dashes alone. -/
  | endOfOptions
  | long (name : String) (value : Option String)
  | short (letters : List Char)

def Word.ofArgument (argument : String) : Word :=
  match argument.toList with
  | ['-', '-'] => .endOfOptions
  | '-' :: '-' :: text =>
    .long (String.ofList (text.takeWhile (· ≠ '=')))
      (match text.dropWhile (· ≠ '=') with
        | _ :: value => some (String.ofList value)
        | [] => none)
  | ['-'] => .plain
  | '-' :: letters => .short letters
  | _ => .plain

/-- The options and plain arguments on one side of the command; an option without a value has the empty
one. -/
structure Side where
  options : List (OptionName × String) := []
  plain : List String := []

namespace Side

def value? (s : Side) (name : OptionName) : Option String := s.options.lookup name

def has (s : Side) (name : OptionName) : Bool := (s.value? name).isSome

/-- Takes an option, unless it was given before. -/
def put (s : Side) (name : OptionName) (value : String) : Option Side :=
  if s.has name then none else some { s with options := (name, value) :: s.options }

def addPlain (s : Side) (arguments : List String) : Side := { s with plain := s.plain ++ arguments }

/-- Takes an option with the value attached to it. Without one, an option that takes a value waits for
the next argument. -/
def putAttached (s : Side) (name : OptionName) (value : Option String) :
    Option (Side × Option OptionName) :=
  match name.takesValue, value with
  | true, some value => (s.put name value).map (·, none)
  | true, none => some (s, some name)
  | false, none => (s.put name "").map (·, none)
  | false, some _ => none

def putLong (s : Side) (known : List OptionName) (text : String) (value : Option String) :
    Option (Side × Option OptionName) := do
  let name ← known.find? (·.long = text)
  s.putAttached name value

/-- The value after the letter of an option, with or without an equals sign. -/
def attached : List Char → Option String
  | [] => none
  | '=' :: value => some (String.ofList value)
  | value => some (String.ofList value)

/-- Takes letters one by one; the first whose option takes a value has the rest as its value. -/
def putShort (known : List OptionName) : List Char → Side → Option (Side × Option OptionName)
  | [], s => some (s, none)
  | letter :: letters, s => do
    let name ← known.find? (·.short? = some letter)
    if name.takesValue then s.putAttached name (attached letters)
    else putShort known letters (← s.put name "")

end Side

/-- Reads arguments up to the first that `stop` takes, with `waiting` the option whose value comes next.
A value must not look like an option. -/
def readSide (known : List OptionName) {α : Type} (stop : String → Option α) :
    Option OptionName → Side → List String → Option (Side × Option (α × List String))
  | none, s, [] => some (s, none)
  | some _, _, [] => none
  | some name, s, argument :: rest =>
    match Word.ofArgument argument with
    | .plain => do readSide known stop none (← s.put name argument) rest
    | _ => none
  | none, s, argument :: rest =>
    match stop argument with
    | some a => some (s, some (a, rest))
    | none =>
      match Word.ofArgument argument with
      | .plain => readSide known stop none (s.addPlain [argument]) rest
      | .endOfOptions => some (s.addPlain rest, none)
      | .long text value => do
        let (s, waiting) ← s.putLong known text value
        readSide known stop waiting s rest
      | .short letters => do
        let (s, waiting) ← s.putShort known letters
        readSide known stop waiting s rest

def sign : List Char → Bool × List Char
  | '-' :: text => (true, text)
  | '+' :: text => (false, text)
  | text => (false, text)

/-- A number below 2 ^ 16, with or without a sign. -/
def port? (text : String) : Option Nat :=
  let (negative, digits) := sign text.toList
  let number := Numeral.digitsValue digits
  if digits.isEmpty || !digits.all (·.isDigit) then none
  else if number < Nat.pow 2 16 && (!negative || number = 0) then some number
  else none

/-- The only plain argument. -/
def single? : List String → Option String
  | [argument] => some argument
  | _ => none

/-- The command of a name and what stands behind it. -/
def command? (s : Side) : CommandName → Option Command
  | .classes => if s.plain.isEmpty then some .classes else none
  | .hierarchy => if s.plain.isEmpty then some (.hierarchy (s.value? .root)) else none
  | .members => (single? s.plain).map .members
  | .uml => (single? s.plain).map .uml
  | .summary => (single? s.plain).map .summary
  | .check => if s.plain.isEmpty then some .check else none
  | .serve => do
    let port ← port? ((s.value? .port).getD "7878")
    if s.plain.isEmpty then some (.serve ((s.value? .host).getD "127.0.0.1") port) else none

end Arguments

/-- The invocation that arguments stand for, if they are well formed. -/
def Invocation.ofArguments? (arguments : List String) : Option Invocation := do
  let (before, stopped) ←
    Arguments.readSide OptionName.everywhere CommandName.ofText? none {} arguments
  let (name, rest) ← stopped
  let (behind, _) ←
    Arguments.readSide name.options (fun _ => (none : Option Unit)) none {} rest
  let snapshot ← Arguments.single? before.plain
  let command ← Arguments.command? behind name
  if snapshot.isEmpty then none
  else some {
    snapshot := snapshot
    command := command
    order := ((behind.value? .order).or (before.value? .order)).getD "kind"
    json := before.has .json || behind.has .json
    verbose := before.has .verbose || behind.has .verbose }

end ClassAtlas
