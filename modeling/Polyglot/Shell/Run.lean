import Polyglot.Shell.Builtin

/-!
# Running shell scripts

A script is run as a session. It is a fragment of the standard command language, enough for executors
that are written in it: all forms of commands and redirections, expansions of parameters, arithmetic
and commands, and the commands in `Builtin`. Commands run one after another, also those of a pipeline
and those that are meant to run beside others, which come last.

How far a script may run is bounded: a script that goes on beyond that is taken to be endless.
-/

namespace Polyglot.Shell

open Polyglot.Text (Raw)

/-! ### Redirections -/

/-- The sinks that streams still lead to. -/
def sinksOf (outputs : List (Nat × Option Sink)) : List Sink :=
  outputs.filterMap fun o => o.2

/-- The file that a redirection for reading names, as input. -/
def inputOf (path : String) : Run (Option Input) := do
  match (← get).files.read path with
  | .ok content => pure (some (.text (Raw.ofString content)))
  | .error e => do
    let detail := match e with
      | .notFound => "No such file"
      | _ => e.message
    Run.complain ("cannot open " ++ path ++ ": " ++ detail)
    pure none

/-- Whether a file could be written at a path: the directory that it would be in is there. -/
def isWritable (files : FileTree) (path : String) : Bool :=
  let parent := path.toList.reverse.dropWhile (· ≠ '/')
  parent = [] || files.contains (String.ofList (parent.reverse ++ ['.']))

/-- Where a redirection for writing leads. -/
def outputOf (outputs : List (Nat × Option Sink)) (path : String) : Option Sink :=
  if path = "/dev/stdout" || path = "/dev/fd/1" then Run.outputAt outputs 1
  else if path = "/dev/stderr" || path = "/dev/fd/2" then Run.outputAt outputs 2
  else none

/-- Makes a stream lead elsewhere. -/
def setOutput (n : Nat) (sink : Option Sink) : Run Unit :=
  modify fun s => { s with outputs := (n, sink) :: s.outputs.filter (·.1 ≠ n) }

/-- Redirects a stream; tells whether that succeeds. -/
def redirect (substitute : Substitute) (r : Redirection) : Run Bool := do
  let target ← expandText substitute maxLevel r.target
  let text := Builtin.textOf target
  let outputs := (← get).outputs
  match r.operator with
  | "<<" | "<<-" => do
    modify fun s => { s with input := .text target }
    pure true
  | "<" | "<>" =>
    match ← inputOf text with
    | some input => do
      if r.stream = 0 then modify fun s => { s with input := input }
      pure true
    | none => pure false
  | "<&" => do
    if text = "-" && r.stream = 0 then modify fun s => { s with input := .closed }
    else if text = "-" then
      modify fun s => { s with outputs := s.outputs.filter (·.1 ≠ r.stream) }
    pure true
  | ">&" => do
    if text = "-" then modify fun s => { s with outputs := s.outputs.filter (·.1 ≠ r.stream) }
    else setOutput r.stream (text.toNat?.bind (Run.outputAt outputs))
    pure true
  | _ =>
    if isWritable (← get).files text then
      setOutput r.stream (outputOf outputs text)
      pure true
    else
      Run.complain ("cannot create " ++ text ++ ": Directory nonexistent")
      pure false

/-- Redirects streams one after another, as long as that succeeds. -/
def redirectAll (substitute : Substitute) : List Redirection → Run Bool
  | [] => pure true
  | r :: rest => do
    if ← redirect substitute r then redirectAll substitute rest else pure false

/-- Runs a part with streams redirected, and then lets them lead where they led before. -/
def redirected (substitute : Substitute) (rs : List Redirection) (part : Run Unit) : Run Unit := do
  let before ← get
  let result ← Run.attempt do
    if ← redirectAll substitute rs then part else Run.setStatus 2
  let readsSame := !rs.any (·.stream = 0)
  modify fun s =>
    { s with outputs := before.outputs, input := if readsSame then s.input else before.input }
  match result with
  | .ok _ => pure ()
  | .error jump => throw jump

/-- Whether input comes from the session. -/
def Input.isStream : Input → Bool
  | .stream => true
  | _ => false

/-- Redirects the streams of the shell itself; what no stream leads to any more is closed. -/
def redirectForGood (substitute : Substitute) (rs : List Redirection) : Run Unit := do
  let before ← get
  if ← redirectAll substitute rs then
    let after ← get
    if before.input.isStream && !after.input.isStream then
      Run.ofSession (.closeInput fun _ => .done ())
    let lost := (sinksOf before.outputs).filter fun s => !(sinksOf after.outputs).contains s
    for sink in lost do
      Run.ofSession (.close sink fun _ => .done ())
    Run.setStatus 0
  else
    Run.setStatus 2
    throw .exit

/-! ### Commands -/

/-- How far a script may run. -/
def maxSteps : Nat := 20000

/-- Sets variables to the values of assignments. -/
def assignWords (substitute : Substitute) : List (String × Word) → Run Unit
  | [] => pure ()
  | (name, value) :: rest => do
    Run.setVariable name (← expandText substitute maxLevel value)
    assignWords substitute rest

/-- The name of a command that is given by the path of a program. -/
def programName (files : FileTree) (name : String) : String :=
  if name.toList.contains '/' then
    match files.find name with
    | .ok (.program p) => p
    | _ => name
  else name

/-- Runs a part with a status of success unless it sets another. -/
def withFreshStatus (part : Run Unit) : Run Unit := do
  Run.setStatus 0
  part

/-- What a shell is started with. -/
structure Start where
  /-- The script. -/
  script : List Char
  /-- What the shell is called. -/
  name : String
  /-- The arguments of the script. -/
  arguments : List Raw
  /-- Whether the shell ends when a command fails. -/
  stopsOnFailure : Bool

/-- What a shell is started with by the arguments of its program, if it is given a script. -/
def startOf (name : String) (stops : Bool) : List Raw → Option Start
  | [] => none
  | option :: rest =>
    match (Builtin.textOf option).toList with
    | '-' :: letters =>
      let stops := stops || letters.contains 'e'
      if letters.contains 'c' then
        match rest with
        | [] => none
        | [script] => some ⟨(Builtin.textOf script).toList, name, [], stops⟩
        | script :: called :: rest =>
          some ⟨(Builtin.textOf script).toList, Builtin.textOf called, rest, stops⟩
      else startOf name stops rest
    | _ => none

/-- Goes on after the body of a loop; tells whether the loop does. -/
def afterBody (result : Except Jump Unit) : Run Bool := do
  match result with
  | .ok _ => pure true
  | .error (.break n) => if n ≤ 1 then pure false else throw (.break (n - 1))
  | .error (.continue n) => if n ≤ 1 then pure true else throw (.continue (n - 1))
  | .error jump => throw jump

/-- Runs a body for each value of a variable. -/
def forEach (name : String) (body : Run Unit) : List Raw → Run Unit
  | [] => pure ()
  | x :: xs => do
    Run.setVariable name x
    if ← afterBody (← Run.attempt body) then forEach name body xs

/-- Runs a script in a shell of its own. -/
def asScript (run : Command → Run Unit) (start : Start) : Run Unit :=
  match Command.ofText? start.script with
  | none => do
    Run.complain "Syntax error"
    Run.setStatus 2
  | some c =>
    Run.apart do
      modify fun s => { s with
        name := start.name
        arguments := start.arguments
        functions := []
        stopsOnFailure := start.stopsOnFailure }
      withFreshStatus (run c)

/-- Runs commands that were left to run beside others; they have no input. -/
def runAll (run : Command → Run Unit) : List Command → Run Unit
  | [] => pure ()
  | job :: jobs => do
    Run.apart do
      modify fun s => { s with input := .text [] }
      run job
    runAll run jobs

/-- Runs the commands that are left to run beside others. -/
def runJobs (run : Command → Run Unit) : Run Unit := do
  let jobs := (← get).jobs
  modify fun s => { s with jobs := [] }
  runAll run jobs

/-- Gives variables the values again that they had before they became local. -/
def unhide : List (String × Option Raw) → Run Unit
  | [] => pure ()
  | (name, some value) :: rest => do
    Run.setVariable name value
    unhide rest
  | (name, none) :: rest => do
    modify fun s => { s with vars := s.vars.filter (·.1 ≠ name) }
    unhide rest

/-- Tells the name or the path by which a command is found. -/
def locate (arguments : List Raw) : Run Unit := do
  let s ← get
  match arguments.map Builtin.textOf with
  | [] => Run.setStatus 0
  | name :: _ =>
    if s.functions.any (·.1 = name) || (Builtin.find? name).isSome then
      Run.emit 1 (Raw.ofString (name ++ "\n"))
      Run.setStatus 0
    else if (s.files.findProgram name).toOption.isSome then
      let path := if name.toList.contains '/' then name else "/usr/bin/" ++ name
      Run.emit 1 (Raw.ofString (path ++ "\n"))
      Run.setStatus 0
    else Run.setStatus 127

/-- The commands that hold others, and those of the shell. -/
def dispatch (run : Command → Run Unit) (name : String) (arguments : List Raw) : Run Unit := do
  let s ← get
  match s.functions.find? fun f => f.1 = name with
  | some f => do
    modify fun s => { s with arguments := arguments, hidden := [] }
    let result ← Run.attempt (run f.2)
    unhide (← get).hidden
    modify fun t => { t with arguments := s.arguments, hidden := s.hidden }
    match result with
    | .ok _ => pure ()
    | .error .return => pure ()
    | .error jump => throw jump
  | none =>
    match programName s.files name with
    | "eval" =>
      match Command.ofText? (Builtin.textOf (joinWith [some ' '] arguments)).toList with
      | some c => withFreshStatus (run c)
      | none => do
        Run.complain "Syntax error"
        Run.setStatus 2
        throw .exit
    | "sh" | "dash" | "bash" =>
      match startOf name false arguments with
      | some start => asScript run start
      | none => Run.setStatus 0
    | "wait" => do
      runJobs run
      Run.setStatus 0
    | program =>
      match Builtin.find? program with
      | some command => command arguments
      | none => do
        Run.complain (name ++ ": not found")
        Run.setStatus 127

/-- Whether there is a command of the given name. -/
def isCommand (s : State) (name : String) : Bool :=
  let program := programName s.files name
  ["eval", "sh", "dash", "bash", "wait"].contains program || (Builtin.find? program).isSome

/-- Runs the words of a simple command, with assignments that hold for it alone. -/
def runWords (substitute : Substitute) (run : Command → Run Unit)
    (assignments : List (String × Word)) (words : List Word) : Run Unit := do
  let fields ← expandAll substitute words
  match fields with
  | [] => do
    Run.setStatus 0
    assignWords substitute assignments
  | name :: arguments => do
    let before := (← get).vars
    assignWords substitute assignments
    let restore : Run Unit := do
      for (x, _) in assignments do
        match before.find? fun v => v.1 = x with
        | some v => Run.setVariable x v.2
        | none => modify fun s => { s with vars := s.vars.filter (·.1 ≠ x) }
    let result ← Run.attempt do
      if Builtin.textOf name = "exec" then
        match arguments with
        | [] => Run.setStatus 0
        | program :: arguments => do
          modify fun s => { s with atExit := none }
          let name := Builtin.textOf program
          if isCommand (← get) name then dispatch run name arguments
          else
            Run.complain ("exec: " ++ name ++ ": not found")
            Run.setStatus 127
          throw .exit
      else if Builtin.textOf name = "command" then
        match arguments with
        | [] => Run.setStatus 0
        | program :: arguments =>
          if Builtin.textOf program = "-v" then locate arguments
          else dispatch run (Builtin.textOf program) arguments
      else dispatch run (Builtin.textOf name) arguments
    restore
    match result with
    | .ok _ => pure ()
    | .error jump => throw jump

/-- Whether the failure of a command with its streams redirected may end the shell. -/
def isSingle : Command → Bool
  | .simple _ _ => true
  | .subshell _ => true
  | _ => false

/-- Whether a command is `exec` without a program. -/
def isBareExec : Command → Bool
  | .simple [] [w] => plainText? w = some "exec"
  | _ => false

/-- Runs a command. -/
def run : (fuel : Nat) → Command → Run Unit
  | 0, _ => Run.ofSession .endless
  | fuel + 1, c =>
    let substitute : Substitute := fun source =>
      match Command.ofText? source with
      | some c => Run.outputOf (run fuel c)
      | none => do
        Run.complain "Syntax error"
        Run.setStatus 2
        throw .exit
    match c with
    | .nothing => pure ()
    | .simple assignments words => do
      runWords substitute (run fuel) assignments words
      Run.stopOnFailure
    | .redirected body rs =>
      if isBareExec body then redirectForGood substitute rs
      else do
        redirected substitute rs (run fuel body)
        if isSingle body then Run.stopOnFailure
    | .pipe left right => do
      let text ← Run.outputOf (run fuel left)
      Run.apart do
        modify fun s => { s with input := .text text }
        run fuel right
      Run.stopOnFailure
    | .negate body => do
      Run.watched (run fuel body)
      Run.setStatus (if (← get).status = 0 then 1 else 0)
    | .seq first second => do
      run fuel first
      run fuel second
    | .both first second => do
      Run.watched (run fuel first)
      if (← get).status = 0 then run fuel second
    | .either first second => do
      Run.watched (run fuel first)
      if (← get).status ≠ 0 then run fuel second
    | .background body => do
      modify fun s => { s with jobs := s.jobs ++ [body] }
      Run.setStatus 0
    | .branch condition yes no => do
      Run.watched (run fuel condition)
      if (← get).status = 0 then run fuel yes
      else withFreshStatus (run fuel no)
    | .loop untilTrue condition body => do
      let last := (← get).status
      Run.watched (run fuel condition)
      if ((← get).status = 0) != untilTrue then
        if ← afterBody (← Run.attempt (run fuel body)) then run fuel (.loop untilTrue condition body)
        else Run.setStatus 0
      else Run.setStatus (if last = 0 then 0 else last)
    | .each name words body => do
      let values ← match words with
        | some ws => expandAll substitute ws
        | none => do pure (← get).arguments
      withFreshStatus (forEach name (run fuel body) values)
    | .case word arms => do
      let text ← expandText substitute maxLevel word
      let chosen ← arms.findM? fun arm =>
        arm.1.anyM fun pattern => do
          let p ← expandPattern substitute maxLevel pattern
          pure (Glob.matchesText (Glob.ofChars p) text)
      match chosen with
      | some arm => withFreshStatus (run fuel arm.2)
      | none => Run.setStatus 0
    | .subshell body => do
      Run.apart (run fuel body)
      Run.stopOnFailure
    | .function name body => do
      modify fun s => { s with functions := (name, body) :: s.functions.filter (·.1 ≠ name) }
      Run.setStatus 0

/-! ### Scripts as sessions -/

/-- Runs what is to be run when the shell ends. -/
def runAtExit : Run Unit := do
  match ((← get).atExit).bind Command.ofText? with
  | none => pure ()
  | some c => do
    modify fun s => { s with atExit := none }
    let _ ← Run.attempt (run maxSteps c)

/-- Runs a script to its end, and then what it left to run. -/
def runScript (script : List Char) : Run Unit := do
  match Command.ofText? script with
  | none => do
    Run.complain "Syntax error"
    Run.setStatus 2
  | some c =>
    match ← Run.attempt (run maxSteps c) with
    | .error .kill => Run.setStatus 137
    | _ => do
      let status := (← get).status
      runAtExit
      runJobs (run maxSteps)
      Run.setStatus status

/-- Runs the lines of the input as scripts. -/
def runLines : (fuel : Nat) → Run Unit
  | 0 => Run.ofSession .endless
  | fuel + 1 => do
    let line ← Run.readLine
    if line = [] then pure ()
    else
      runScript (line.filterMap id)
      runLines fuel

/-- The session of a shell that is started by a name with arguments and variables; without a script it
reads commands from its input. -/
def session (files : FileTree) (name : String) (arguments : List String)
    (vars : List (String × String)) : Session Nat := do
  let start : State :=
    { files := files, name := name
      vars := vars.map fun (x, v) => (x, Raw.ofString v)
      functions := [], arguments := [], status := 0, input := .stream
      outputs := [(1, some .output), (2, some .diagnostics)], jobs := []
      stopsOnFailure := false, atExit := none, hidden := [] }
  let (script, start) := match startOf name false (arguments.map Raw.ofString) with
    | some s =>
      (runScript s.script,
        { start with name := s.name, arguments := s.arguments, stopsOnFailure := s.stopsOnFailure })
    | none => (runLines maxSteps, start)
  let (_, state) ← script.run.run start
  pure state.status

/-- The session of a command that is started by itself. -/
def commandSession (files : FileTree) (name : String) (arguments : List String)
    (vars : List (String × String)) : Session Nat :=
  session files "sh" (["-c", "exec \"$0\" \"$@\"", name] ++ arguments) vars

end Polyglot.Shell
