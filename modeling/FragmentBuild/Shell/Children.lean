import FragmentBuild.Shell.Reader
import FragmentBuild.Shell.Redirect

/-! Scripts and processes: how a text is carried out line by line, what a process does when a
signal comes and when it ends, and how a process has another one run. -/
namespace FragmentBuild.Shell.Action

def noteReading (reader : Reader) : Action Unit :=
  change fun process =>
    { process with
      documents := reader.documents ++ process.documents
      nextDocument := reader.nextDocument
      reached := reader.line }

def between (before after : Reader) : Bytes :=
  before.rest.take (before.rest.length - after.rest.length)

variable (run : Mode → Command → Action Nat)

/-- Carries out the lines of a script one after the other. Nothing more is read once commands are
passed over. The status is that of the last command. -/
def scriptFrom (mode : Mode) (isShown : Bool) : Nat → Nat → Reader → Action Nat
  | 0, status, _ => return status
  | fuel + 1, status, reader => do
    let process ← process
    let start : Reader :=
      { reader with
        aliases := process.aliases, documents := [], nextDocument := process.nextDocument }
    match Reader.nextLine.run start with
    | .error fault => do
      change ({ · with line := fault.line })
      refuseText ("Syntax error: " ++ fault.message)
    | .ok (line, reader) => do
      noteReading reader
      if isShown && process.options.contains "verbose" then writeError (between start reader)
      match line with
      | .stop => return status
      | .command command => do
        let mode := { mode with exits := mode.exits && reader.isAtEnd }
        let status ←
          match command with
          | some command => run mode command
          | none => pure status
        if (← Action.process).skip ≠ .nothing then return status
        else scriptFrom mode isShown fuel status reader

def script (mode : Mode) (isShown : Bool) (text : Bytes) : Action Nat := do
  let reached := (← process).reached
  let status ← scriptFrom run mode isShown (text.length + 2) 0 { rest := text }
  change ({ · with reached })
  return status

/-- Does what is to be done for the signals that have come, unless commands are passed over. The
status stays what it was, unless the function is left with another one. -/
def answerSignals (status : Nat) : List Nat → Action Unit
  | [] => return
  | signal :: rest => do
    let process ← process
    if process.skip ≠ .nothing then
      change fun process => { process with caught := signal :: rest ++ process.caught }
    else
      match process.traps.lookup signal with
      | none => answerSignals status rest
      | some text => do
        let _ ← script run {} false text
        if (← Action.process).skip ≠ .returning true then setStatus status
        answerSignals status rest

def answerCaught : Action Unit := do
  let process ← process
  if process.caught.isEmpty then return
  let status := process.trapped.getD process.status
  change ({ · with trapped := some status, caught := [] })
  answerSignals run status (process.caught.mergeSort (· ≤ ·))
  change ({ · with trapped := process.trapped })

/-- Prints what the command at hand has to print, and says why it cannot be done. -/
def flush : Action (Option SystemError) := do
  let text := (← process).output.reverse
  change ({ · with output := [] })
  write 1 text

def sayGoodbye : Action Unit := do
  let process ← process
  let status := process.status
  change ({ · with trapped := some status })
  match process.traps.lookup 0 with
  | none | some [] => return
  | some text => do
    change fun process =>
      { process with traps := process.traps.filter (·.1 != 0), skip := .nothing }
    match ← attempt (script run {} false text) with
    | .ok _ => setStatus status
    | .error .exit => do setStatus ((← Action.process).trapped.getD status)
    | .error (.ended ending) => throw (.ended ending)
    | .error _ => return

def finish (result : Except Unwind Unit) : Action Ending := do
  match result with
  | .error (.ended ending) => return ending
  | result => do
    if let .error .exit := result then
      if let some status := (← process).trapped then setStatus status
    change ({ · with trapped := none, skip := .nothing, loops := 0 })
    sayGoodbye run
    let _ ← flush
    return .exited (← process).status

def inProcess (child : Process) (body : Action Ending) : Action Ending := do
  let state ← get
  let parent := state.process
  set { state with process := child, system.alive := child.number :: state.system.alive }
  let ending ←
    match ← attempt body with
    | .ok ending => pure ending
    | .error (.ended ending) => pure ending
    | .error _ => pure (.exited (← process).status)
  modify fun state =>
    { state with
      process := parent
      system.alive := state.system.alive.filter (· != child.number) }
  return ending

def childOf (parent : Process) (number : Nat) : Process :=
  { parent with
    number
    parent := parent.number
    traps := parent.traps.filter (·.2.isEmpty)
    caught := []
    jobs := []
    isSubshell := true }

def newNumber : Action Nat := do
  let state ← get
  let number := state.system.nextProcess
  set { state with system.nextProcess := number + 1 }
  return number

def asEnd (body : Action Unit) : Action Ending := do finish run (← attempt body)

def jobBody (job : Waiting) : Action Unit := do
  let command :=
    match job.command with
    | .background line body redirections => .subshell line body redirections
    | command => command
  let _ ← run { job.mode with exits := true } command
  throw .finish

def noteEnding (number : Nat) (ending : Ending) (isTold : Bool) : Action Unit :=
  change fun process =>
    { process with
      jobs := process.jobs.map fun job =>
        if job.process = number then { job with ending := some ending, isTold } else job }

/-- Carries out the commands in the background that a process has begun, up to a certain one. No
more are begun once a signal has come. -/
def runJobs (last : Option Nat) : Nat → Action Unit
  | 0 => return
  | fuel + 1 => do
    let state ← get
    let parent := state.process.number
    match state.waiting.find? fun job => job.process.parent = parent with
    | none => return
    | some job => do
      let number := job.process.number
      set { state with
        waiting := state.waiting.filter fun other => other.process.number != number }
      let ending ← inProcess job.process do
        let ending ← asEnd run (jobBody run job)
        runJobs none fuel
        return ending
      noteEnding number ending (last != some number)
      takeSignals
      if last = some number ∨ !(← process).caught.isEmpty then return
      else runJobs last fuel

def jobLimit : Nat := 100000

/-- The first place for a job. One that is over and has been waited for gives its place away. -/
def takePlace : Action Nat := do
  let { jobs, .. } ← process
  let isFree := fun (place : Nat) =>
    (jobs.find? (·.place == place)).all fun job => job.ending.isSome && job.isAwaited
  let place := (((List.range jobs.length).map (· + 1)).find? isFree).getD (jobs.length + 1)
  change ({ · with jobs := jobs.filter (·.place != place) })
  return place

/-- Does something in a process that splits off and is waited for. Commands in the background
come first, and those that the process leaves behind are carried out as well. -/
def fork (prepare : Process → Process) (body : Action Unit) : Action Ending := do
  runJobs run none jobLimit
  let number ← newNumber
  let child := prepare (childOf (← process) number)
  let ending ← inProcess child do
    let ending ← asEnd run body
    runJobs run none jobLimit
    return ending
  takeSignals
  return ending

def report (ending : Ending) : Action Nat := do
  match ending with
  | .exited _ => return ending.status
  | .signalled signal => do
    let notice := Signal.notice signal
    if !notice.isEmpty then writeError (ofString (notice ++ "\n"))
    return ending.status

def capture (command : Command) : Action Bytes := do
  let state ← get
  let (pipe, _, sink, system) := state.system.addPipe none
  set { state with system }
  let _ ← takePlace
  let ending ← fork run
    (fun process => { process with descriptors := setEntry 1 sink process.descriptors }) do
      let _ ← run { exits := true } command
      throw .finish
  let substituted ← report ending
  change ({ · with substituted })
  let written := ((← get).system.pipes[pipe]?.map (·.written)).getD []
  modify fun state => { state with system.pipes := state.system.pipes.set! pipe {} }
  return ((written.filter (· != '\x00')).dropWhile (· == '\n')).reverse

end FragmentBuild.Shell.Action
