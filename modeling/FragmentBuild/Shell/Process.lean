import FragmentBuild.Entries
import FragmentBuild.Shell.Signal
import FragmentBuild.Shell.System

/-! A process: its variables and arguments, where its descriptors lead, and what changes it. -/
namespace FragmentBuild.Shell

structure Variable where
  value : Option Bytes
  isExported : Bool := false
  isReadOnly : Bool := false

inductive Ending where
  | exited (status : Nat)
  | signalled (signal : Nat)
  deriving DecidableEq

/-- The status that another process sees. -/
def Ending.status : Ending → Nat
  | .exited status => status % 256
  | .signalled signal => 128 + signal

inductive Skip where
  | nothing
  | breaking (levels : Nat)
  | continuing (levels : Nat)
  /-- The rest of a function or of a file. -/
  | returning (givesStatus : Bool)
  deriving DecidableEq

/-- What a variable or the options were before they were made local. -/
inductive Saved where
  | binding (name : Bytes) (before : Option Variable)
  | options (before : List String)

structure Job where
  /-- The place that it is known by. -/
  place : Nat
  /-- The process at its end, and how many there are. -/
  process : Nat
  stages : Nat := 1
  ending : Option Ending := none
  /-- Whether it is too late to tell that a signal has ended it. -/
  isTold : Bool := false
  /-- Whether its end has been waited for. -/
  isAwaited : Bool := false

abbrev Found := List (Bytes × Bytes)

structure Process where
  number : Nat
  parent : Nat := 1
  /-- The process that a script knows as its own. -/
  root : Nat
  /-- What the process goes by in its messages. -/
  name : Bytes
  arguments : List Bytes := []
  working : Option Location
  /-- The working directory as the shell knows it. -/
  directory : Bytes := []
  bindings : List (Bytes × Variable) := []
  functions : List (Bytes × Command) := []
  aliases : List (Bytes × Bytes) := []
  found : Found := []
  options : List String := []
  /-- The open file that each descriptor leads to. -/
  descriptors : List (Nat × Nat) := []
  /-- What is done when a signal comes; nothing if the text is empty. -/
  traps : List (Nat × Bytes) := []
  /-- Signals that have come and still have to be dealt with. -/
  caught : List Nat := []
  /-- The commands in the background, the latest first. -/
  jobs : List Job := []
  lastJob : Option Nat := none
  status : Nat := 0
  /-- The status of the last script that stood in a word. -/
  substituted : Nat := 0
  /-- The status before a trap. -/
  trapped : Option Nat := none
  line : Nat := 1
  /-- The command that is being carried out, for messages. -/
  context : Option Bytes := none
  /-- The line up to which the script has been read. -/
  reached : Nat := 1
  /-- How many loops the command stands in. -/
  loops : Nat := 0
  skip : Skip := .nothing
  /-- How many functions are being carried out. -/
  calls : Nat := 0
  frames : List (List Saved) := []
  /-- The argument that options are taken from, and the place in it. -/
  optionIndex : Nat := 1
  optionPlace : Option Nat := none
  mask : Nat := 18
  documents : List (Nat × Document) := []
  nextDocument : Nat := 0
  /-- What the command at hand has printed, last first. -/
  output : Bytes := []
  isSubshell : Bool := false
  /-- Whether the words before a traced command are being expanded. -/
  isTracing : Bool := false

structure Mode where
  /-- The process ends with the command. -/
  exits : Bool := false
  /-- Somebody asks whether the command succeeds. -/
  tested : Bool := false

/-- A command in the background that has not begun, with the process that it will be. -/
structure Waiting where
  process : Process
  command : Command
  mode : Mode

structure State where
  system : System
  process : Process
  waiting : List Waiting := []

inductive Unwind where
  | error
  | exit
  /-- The last command of the process is done, or one has failed that must not. -/
  | finish
  /-- Nothing is left of the process. -/
  | ended (ending : Ending)

abbrev Action := ExceptT Unwind (StateM State)

namespace Action

def process : Action Process := return (← get).process

def change (change : Process → Process) : Action Unit :=
  modify fun state => { state with process := change state.process }

def setStatus (status : Nat) : Action Unit := change ({ · with status })

def hasOption (name : String) : Action Bool := return (← process).options.contains name

/-- Ends the process by a signal, or takes note of the signal. -/
def takeSignal (signal : Nat) : Action Unit := do
  match (← process).traps.lookup signal, decide (signal = 9 ∨ signal = 19) with
  | some [], false => return
  | some _, false => change fun process =>
      { process with caught := process.caught.filter (· != signal) ++ [signal] }
  | _, _ => if !Signal.isHarmless signal then throw (.ended (.signalled signal))

def takeSignals : Action Unit := do
  let state ← get
  if state.system.signals.isEmpty then return
  let (own, others) := state.system.signals.partition (·.1 == state.process.number)
  set { state with system.signals := others }
  own.reverse.forM fun entry => takeSignal entry.2

def writeFile (file : Nat) (text : Bytes) : Action (Option SystemError) := do
  let state ← get
  match state.system.write file text with
  | .ok system =>
    set { state with system }
    return none
  | .error (.refused error) => return some error
  | .error .unheard => do
    takeSignal 13
    return some (.other "Broken pipe")

def write (descriptor : Nat) (text : Bytes) : Action (Option SystemError) := do
  if text.isEmpty then return none
  match (← process).descriptors.lookup descriptor with
  | none => return some .badDescriptor
  | some file => writeFile file text

def writeError (text : Bytes) : Action Unit := do
  let _ ← write 2 text

/-- Prints something when the command at hand is done. -/
def print (text : Bytes) : Action Unit :=
  change fun process => { process with output := text.reverse ++ process.output }

def printLine (text : Bytes) : Action Unit := print (text ++ ['\n'])

/-- Prints what is wrong, after the name of the process, the line and the command it is at. -/
def complain (text : Bytes) : Action Unit := do
  let process ← process
  let context :=
    match process.context with
    | some name => name ++ [':', ' ']
    | none => []
  writeError (process.name ++ ofString (": " ++ toString process.line ++ ": ") ++ context ++ text ++
    ['\n'])

def refuse (text : Bytes) : Action α := do
  complain text
  setStatus 2
  throw .error

def refuseText (text : String) : Action α := refuse (ofString text)

def refuseNumber (text : Bytes) : Action α := refuse (ofString "Illegal number: " ++ text)

def integer (text : Bytes) : Action Int := do
  match integerAt? decimalAt? text with
  | none => refuseNumber text
  | some (value, rest) =>
    if rest.all isSpace && (clamp value).toInt == value then return value else refuseNumber text

def natural (text : Bytes) : Action Nat := do
  let value ← integer text
  if value < 0 ∨ 2147483647 < value then refuseNumber text
  return value.toNat

def binding? (name : Bytes) : Action (Option Variable) := return (← process).bindings.lookup name

def value? (name : Bytes) : Action (Option Bytes) := return (← binding? name).bind (·.value)

/-- Variables that keep their marks when they are unset. -/
def lastingNames : List String :=
  ["IFS", "MAIL", "MAILPATH", "PATH", "PS1", "PS2", "PS4", "OPTIND", "TERM", "HISTSIZE"]

def settle (name : Bytes) (value : Bytes) : Action Unit := do
  match toText name with
  | "OPTIND" => do
    let index ← natural value
    change ({ · with optionIndex := max index 1, optionPlace := none })
  | "PATH" => change ({ · with found := [] })
  | _ => return

/-- Gives a variable another state, unless it is protected. -/
def setBinding (name : Bytes) (change : Option Variable → Option Variable) : Action Unit := do
  let before ← binding? name
  if before.any (·.isReadOnly) then refuse (name ++ ofString ": is read only")
  let after := change before
  settle name ((after.bind (·.value)).getD [])
  Action.change fun process =>
    { process with
      bindings :=
        match after with
        | some binding => setEntry name binding process.bindings
        | none => process.bindings.filter (·.1 != name) }

def checkName (name : Bytes) : Action Unit := do
  if !isName name then refuse (name ++ ofString ": bad variable name")

def setVariable (name value : Bytes) (exports : Bool) : Action Unit := do
  let exports := exports || (← hasOption "allexport")
  setBinding name fun before =>
    some { value := some value, isExported := exports || before.any (·.isExported) }

def assign (name value : Bytes) : Action Unit := do
  checkName name
  setVariable name value false

def unset (name : Bytes) : Action Unit := do
  checkName name
  setBinding name fun before =>
    if lastingNames.contains (toText name) then
      before.map fun binding => { binding with value := none }
    else none

def inherited (process : Process) : List (Bytes × Bytes) :=
  process.bindings.filterMap fun (name, binding) =>
    if binding.isExported then binding.value.map (name, ·) else none

def save (saved : Saved) : Action Unit :=
  change fun process =>
    { process with
      frames :=
        match process.frames with
        | [] => []
        | frame :: outer => (saved :: frame) :: outer }

def makeLocal (name : Bytes) (value : Option Bytes) (exports : Bool) : Action Unit := do
  if name = ['-'] ∧ value.isNone then save (.options (← process).options)
  else
    checkName name
    let before ← binding? name
    if before.isSome ∧ value.isNone then save (.binding name before)
    else
      setBinding name fun before => some
        { value, isExported := exports || before.any (·.isExported) }
      save (.binding name before)

def restore (saved : Saved) : Action Unit :=
  match saved with
  | .options options => change ({ · with options })
  | .binding name before => do
    let process ← process
    change ({ · with
      bindings :=
        match before with
        | some binding => setEntry name binding process.bindings
        | none => process.bindings.filter (·.1 != name) })
    if name = "PATH".toList then change ({ · with found := [] })
    if name = "OPTIND".toList then
      let index := numberOf 10 ((before.bind (·.value)).getD [])
      change ({ · with optionIndex := max index 1, optionPlace := none })

/-- Gives back what was made local, until so many functions are left. -/
def dropFrames (left : Nat) : Action Unit := do
  let process ← process
  let finished := process.frames.take (process.frames.length - left)
  finished.forM fun frame => frame.forM restore
  change fun process => { process with frames := process.frames.drop finished.length }

def attempt (action : Action α) : Action (Except Unwind α) :=
  ExceptT.mk do return .ok (← action.run)

/-- Does something afterwards in any case, unless nothing is left of the process. -/
def andThen (action : Action α) (afterwards : Action Unit) : Action α := do
  match ← attempt action with
  | .ok value => do
    afterwards
    return value
  | .error (.ended ending) => throw (.ended ending)
  | .error unwind => do
    afterwards
    throw unwind

end Action

end FragmentBuild.Shell
