import FragmentBuild.Shell.Children
import FragmentBuild.Shell.Options
import FragmentBuild.Shell.Quoting

/-! Commands about signals and about commands in the background. -/
namespace FragmentBuild.Shell.Jobs

open Action

/-- Sets what is done when a signal comes; nothing special if there is no text. -/
def setTrap (action : Option Bytes) (signal : Nat) : Action Unit :=
  change fun process =>
    let others := process.traps.filter (·.1 != signal)
    { process with
      traps :=
        match action with
        | some text => (signal, text) :: others
        | none => others }

def setTraps (action : Option Bytes) : List Bytes → Action Nat
  | [] => return 0
  | word :: rest => do
    match Signal.ofText? 0 word with
    | some signal => do
      setTrap action signal
      setTraps action rest
    | none => do
      writeError (ofString "trap: " ++ word ++ ofString ": bad trap\n")
      return 1

def trap (arguments : List Bytes) : Action Nat := do
  let { words, .. } ← options "" arguments
  match words with
  | [] => do
    let traps := (← process).traps.mergeSort fun a b => a.1 ≤ b.1
    traps.forM fun (signal, text) =>
      printLine (ofString "trap -- " ++ inSingleQuotes text ++ ofString (" " ++ Signal.name signal))
    return 0
  | [word] => setTraps none [word]
  | word :: rest =>
    if !word.isEmpty && word.all Char.isDigit && (Signal.ofText? 0 word).isSome then
      setTraps none words
    else setTraps (if word = ['-'] then none else some word) rest

/-- Ends a command in the background that has not begun, unless it does not mind the signal. -/
def endWaiting (number signal : Nat) : Action Unit := do
  let state ← get
  match state.waiting.find? fun job => job.process.number = number with
  | none => return
  | some job =>
    if Signal.isHarmless signal || (job.process.traps.lookup signal).isSome then return
    else
      modify fun state =>
        { state with
          waiting := state.waiting.filter fun job => job.process.number != number
          system.alive := state.system.alive.filter (· != number) }
      noteEnding number (.signalled signal) false

def send (signal : Nat) (number : Int) : Action Bool := do
  let state ← get
  let isWaiting := state.waiting.any fun job => (job.process.number : Int) == number
  if number = 0 ∨ number = state.process.number then
    takeSignal signal
    return true
  else if isWaiting then
    endWaiting number.toNat signal
    return true
  else if state.system.alive.any fun other => (other : Int) == number then
    if signal ≠ 0 then
      modify fun state =>
        { state with system.signals := (number.toNat, signal) :: state.system.signals }
    return true
  else return false

/-- The job that a word stands for among jobs, the latest first, or what is wrong with it. -/
def jobAmong (jobs : List Job) (word : Bytes) : Except Bytes Job :=
  let unknown := ofString "No such job: " ++ word
  let given := fun (job : Option Job) (fault : Bytes) => job.elim (.error fault) .ok
  match word with
  | ['%'] | ['%', '%'] | ['%', '+'] => given jobs.head? (ofString "No current job")
  | ['%', '-'] => given jobs[1]? (ofString "No previous job")
  | ['%', '?'] =>
    given jobs.head? (if jobs.length < 2 then unknown else word ++ ofString ": ambiguous")
  | '%' :: digits =>
    if digits.all Char.isDigit then given (jobs.find? (·.place == numberOf 10 digits)) unknown
    else .error unknown
  | _ => .error unknown

def jobOf (word : Bytes) : Action Job := do
  match jobAmong (← process).jobs word with
  | .ok job => return job
  | .error fault => refuse fault

def goalOf (word : Bytes) : Action Int := do
  match word with
  | '%' :: _ => return Int.negOfNat (← jobOf word).process
  | '-' :: rest => return Int.negOfNat (← natural rest)
  | word => return (← natural word : Nat)

def usage : Action α :=
  refuseText ("Usage: kill [-s sigspec | -signum | -sigspec] [pid | job]... or\n" ++
    "kill -l [exitstatus]")

def listSignals (words : List Bytes) : Action Nat := do
  match words with
  | [] => do
    printLine ['0']
    ((List.range Signal.count).drop 1).forM fun signal => printLine (ofString (Signal.name signal))
    return 0
  | word :: _ => do
    let number ← natural word
    let signal := if 128 < number then number - 128 else number
    if 0 < signal ∧ signal < Signal.count then
      printLine (ofString (Signal.name signal))
      return 0
    else refuse (ofString "invalid signal number or exit status: " ++ word)

def sendAll (signal : Nat) (words : List Bytes) : Action Nat := do
  let sent ← words.mapM fun word => do
    if ← send signal (← goalOf word) then return true
    else
      complain (ofString "No such process\n")
      return false
  return if sent.all id then 0 else 1

def signalOf (chosen : Chosen) : Action (Option Nat) :=
  chosen.options.foldlM (fun signal option => do
    if option.1 ≠ 's' then return signal
    else
      match Signal.ofText? 1 option.2 with
      | some signal => return some signal
      | none => refuse (ofString "invalid signal number or name: " ++ option.2)) none

def kill (arguments : List Bytes) : Action Nat := do
  match arguments with
  | [] => usage
  | ('-' :: text) :: rest =>
    match Signal.ofText? 1 text with
    | some signal => if rest.isEmpty then usage else sendAll signal rest
    | none => do
      let chosen ← options "ls:" arguments
      let signal ← signalOf chosen
      if chosen.has 'l' then
        if signal.isSome then usage else listSignals chosen.words
      else if chosen.words.isEmpty then usage
      else sendAll (signal.getD 15) chosen.words
  | words => sendAll 15 words

variable (run : Mode → Command → Action Nat)

def interrupted? : Action (Option Nat) :=
  return (← process).caught.getLast?.map (128 + ·)

def changeJobs (isMeant : Job → Bool) (change : Job → Job) : Action Unit :=
  Action.change fun process =>
    { process with jobs := process.jobs.map fun job => if isMeant job then change job else job }

def waitFor (number : Nat) : Action Nat := do
  let isKnown := (← process).jobs.any fun job => job.process == number
  if !isKnown then return 127
  if (← get).waiting.any fun job => job.process.number == number then
    runJobs run (some number) jobLimit
  match (← process).jobs.find? fun job => job.process == number with
  | some { ending := some ending, isTold, .. } => do
    changeJobs (·.process == number) ({ · with isTold := true, isAwaited := true })
    if isTold then return ending.status else report ending
  | _ => return 127

def waitForEach (status : Nat) : List Bytes → Action Nat
  | [] => return status
  | word :: rest => do
    let number ← if word.head? = some '%' then pure (← jobOf word).process else natural word
    let status ← waitFor run number
    match ← interrupted? with
    | some status => return status
    | none => waitForEach status rest

def wait (arguments : List Bytes) : Action Nat := do
  let { words, .. } ← options "" arguments
  if words.isEmpty then
    runJobs run none jobLimit
    changeJobs (·.ending.isSome) ({ · with isTold := true, isAwaited := true })
    return (← interrupted?).getD 0
  else waitForEach run 127 words

/-- Jobs are not under control: none can be brought to the front or let go on. -/
def resume (arguments : List Bytes) : Action Nat := do
  let word := (← options "" arguments).words.head?
  let _ ← jobOf (word.getD ['%'])
  refuse (ofString "job " ++ word.getD (ofString "(null)") ++
    ofString " not created under job control")

def progress (job : Job) : String :=
  match job.ending with
  | none => "Running"
  | some (.exited 0) => "Done"
  | some (.exited status) => "Done(" ++ toString (status % 256) ++ ")"
  | some (.signalled signal) => Signal.description signal

def progressWidth : Nat := 33

/-- Lists a job, for the last time if it is over. -/
def tellJob (chosen : Chosen) (job : Job) : Action Unit := do
  let { jobs, .. } ← process
  let isAt := fun (index : Nat) => jobs[index]?.any (·.place == job.place)
  let sign := if isAt 0 then " + " else if isAt 1 then " - " else "   "
  let number := if chosen.has 'l' then toString job.process ++ " " else ""
  let text := ofString ("[" ++ toString job.place ++ "]" ++ sign ++ number ++ progress job)
  let blanks := List.replicate (max 1 (progressWidth - text.length)) ' '
  let others := (List.replicate (job.stages - 1) (ofString " | ")).flatten
  if chosen.has 'p' then printLine (numeral job.process)
  else
    printLine (text ++ blanks ++ others)
    if job.ending.isSome then change fun process =>
      { process with jobs := process.jobs.filter (·.place != job.place) }

def jobs (arguments : List Bytes) : Action Nat := do
  let chosen ← options "lp" arguments
  if chosen.words.isEmpty then (← process).jobs.forM (tellJob chosen)
  else chosen.words.forM fun word => do tellJob chosen (← jobOf word)
  return 0

def times : Action Nat := do
  let line := ofString "0m0.000000s 0m0.000000s"
  printLine line
  printLine line
  return 0

def limit (arguments : List Bytes) : Action Nat := do
  let chosen ← options "HSatfdscmlpnvwr" arguments
  match chosen.words with
  | [] => printLine (ofString (if chosen.has 'c' then "0" else "unlimited"))
  | word :: _ =>
    if word ≠ "unlimited".toList && !word.all Char.isDigit then refuseText "bad number"
  return 0

end FragmentBuild.Shell.Jobs
