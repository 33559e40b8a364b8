import FragmentBuild.Shell.Perform

/-! Running commands. How deep commands may stand in each other is bounded, and so is how often a
loop goes round. -/
namespace FragmentBuild.Shell.Action

/-- What is passed over at the end of a loop's round. One level of loops is left by that; the
outermost one that is meant goes on with its next round if it is not left for good. -/
def endRound : Action Skip := do
  let skip := (← process).skip
  match skip with
  | .breaking levels => do
    change ({ · with skip := if levels ≤ 1 then .nothing else .breaking (levels - 1) })
    return skip
  | .continuing levels => do
    change ({ · with skip := if levels ≤ 1 then .nothing else .continuing (levels - 1) })
    return if levels ≤ 1 then skip else .breaking levels
  | skip => return skip

def isOver (skip : Skip) : Bool :=
  match skip with
  | .nothing | .continuing _ => false
  | _ => true

def roundLimit : Nat := 1000000000

def goRound (condition body : Action Nat) (expected : Bool) : Nat → Nat → Action Nat
  | 0, status => return status
  | fuel + 1, status => do
    let answer ← condition
    let skip ← endRound
    if isOver skip then return if skip = .returning true then answer else status
    else if skip ≠ .nothing then goRound condition body expected fuel status
    else if (answer == 0) != expected then return status
    else
      let status ← body
      if isOver (← endRound) then return status
      else goRound condition body expected fuel status

def goThrough (body : Bytes → Action Nat) : Nat → List Bytes → Action Nat
  | status, [] => return status
  | _, value :: rest => do
    let status ← body value
    if isOver (← endRound) then return status else goThrough body status rest

def inLoop (action : Action Nat) : Action Nat := do
  let before := (← process).loops
  change ({ · with loops := before + 1 })
  let status ← action
  change ({ · with loops := before })
  return status

variable (run : Mode → Command → Action Nat)

def armFor? (subject : Bytes) :
    List (List Word × Option Command) → Action (Option (Option Command))
  | [] => return none
  | (patterns, body) :: rest => do
    if ← fitsAny patterns then return some body
    else if (← process).skip ≠ .nothing then return none
    else armFor? subject rest
where
  fitsAny : List Word → Action Bool
    | [] => return false
    | word :: more => do
      if (← pattern (capture run) word).fits subject then return true else fitsAny more

/-- How much may be written to a process that has not begun to read. -/
def pipeRoom : Nat := 200000

/-- Runs the stages of a pipeline one after the other, each reading what the one before has
written. -/
def runStages (mode : Mode) (input : Option Nat) : List Command → Action Nat
  | [] => return 0
  | stage :: rest => do
    let (output, next) ←
      if rest.isEmpty then pure (none, none)
      else do
        let state ← get
        let (_, source, sink, system) := state.system.addPipe (some pipeRoom)
        set { state with system }
        pure (some sink, some source)
    let redirected := fun (descriptors : List (Nat × Nat)) =>
      let descriptors := (input.map (setEntry 0 · descriptors)).getD descriptors
      (output.map (setEntry 1 · descriptors)).getD descriptors
    let ending ← fork run
      (fun process => { process with descriptors := redirected process.descriptors }) do
        let _ ← run { mode with exits := true } stage
        throw .finish
    let status ← report ending
    if rest.isEmpty then return status else runStages mode next rest

def postpone (mode : Mode) (command : Command) : Action Nat := do
  let place ← takePlace
  let number ← newNumber
  let stages :=
    match command with
    | .pipe stages _ => stages.length
    | _ => 1
  let input ← addFile { target := .nothing, isWritable := false }
  let child := childOf (← process) number
  let child := { child with descriptors := setEntry 0 input child.descriptors }
  modify fun state =>
    { state with
      waiting := state.waiting ++ [⟨child, command, { mode with exits := true }⟩]
      process.jobs := { place, process := number, stages } :: state.process.jobs
      process.lastJob := some number }
  return 0

/-- Carries out commands with redirections in the process at hand, which ends with them. -/
def replaceBy (mode : Mode) (body : Command) (redirections : List Redirection) : Action Nat := do
  let openings ← openings (capture run) redirections
  redirect (capture run) openings
  let _ ← run { mode with exits := true } body
  throw .finish

def setLine (line : Nat) : Action Unit := change ({ · with line })

/-- What a command comes to, and whether a failure of it ends the process. The commands within it
are run by `run`. -/
def step (mode : Mode) (command : Command) : Action (Nat × Bool) := do
  let inner : Mode := { tested := mode.tested }
  match command with
  | .simple line assignments words redirections =>
    return (← simple run mode line assignments words redirections, true)
  | .sequence first second => do
    let status ← run inner first
    if (← process).skip ≠ .nothing then return (status, false)
    else return (← run mode second, false)
  | .both first second => do
    let status ← run { tested := true } first
    if status ≠ 0 || (← process).skip ≠ .nothing then return (status, false)
    else return (← run mode second, false)
  | .either first second => do
    let status ← run { tested := true } first
    if status = 0 || (← process).skip ≠ .nothing then return (status, false)
    else return (← run mode second, false)
  | .negated command => do
    let status ← run { tested := true } command
    return (if status = 0 then 1 else 0, false)
  | .pipe stages false => do
    let _ ← takePlace
    return (← runStages run mode none stages, true)
  | .pipe stages true => return (← postpone { tested := mode.tested } (.pipe stages false), true)
  | .background line body redirections => do
    setLine line
    return (← postpone {} (.background line body redirections), true)
  | .subshell line body redirections => do
    setLine line
    if mode.exits && !(← hasTraps) then
      return (← replaceBy run mode body redirections, true)
    else
      let _ ← takePlace
      let ending ← fork run id do
        let _ ← replaceBy run mode body redirections
      return (← report ending, true)
  | .redirected line body redirections => do
    setLine line
    let openings ← openings (capture run) redirections
    let changed ← led openings
    andThen
      (do
        if ← tryRedirect (capture run) openings then return (← run inner body, false)
        else return (2, true))
      (leadBack changed)
  | .branch condition yes no => do
    let status ← run { tested := true } condition
    if (← process).skip ≠ .nothing then return (status, false)
    else
      match if status = 0 then some yes else no with
      | some command => return (← run mode command, false)
      | none => return (0, false)
  | .loop expected condition body => do
    let status ← inLoop
      (goRound (run { tested := true } condition) (run inner body) expected roundLimit 0)
    return (status, false)
  | .each line name words body => do
    setLine line
    let values ← words.mapM (fields (capture run))
    let round := fun (value : Bytes) => do
      setVariable name value false
      run inner body
    return (← inLoop (goThrough round 0 values.flatten), false)
  | .choice line subject arms => do
    setLine line
    let subject ← text (capture run) { hasTilde := true } subject
    match ← armFor? run subject arms with
    | some (some body) =>
      if (← process).skip ≠ .nothing then return (0, false)
      else return (← run mode body, false)
    | _ => return (0, false)
  | .define _ name body => do
    change fun process =>
      { process with
        found := process.found.filter (·.1 != name)
        functions := setEntry name body process.functions }
    return (0, false)

/-- Runs a command, with what is to be done for signals before and after it. The process ends if
the command fails and nobody asks whether it does, or if it is the last one. -/
def evaluate : Nat → Mode → Command → Action Nat
  | 0, _, _ => refuseText "too deep"
  | fuel + 1, mode, command => do
    let run := evaluate fuel
    let mayStop ←
      if ← hasOption "noexec" then pure false
      else do
        answerCaught run
        let (status, mayStop) ← step run mode command
        setStatus status
        pure (mayStop && !mode.tested && status ≠ 0)
    answerCaught run
    if mayStop && (← hasOption "errexit") then throw .finish
    if mode.exits then throw .finish
    return (← process).status

def depthLimit : Nat := 1000000

def runProgram (launch : Launch) (environment : List (Bytes × Bytes)) : Action Ending := do
  let ending ← become (evaluate depthLimit) launch environment programLimit
  runJobs (evaluate depthLimit) none jobLimit
  return ending

end FragmentBuild.Shell.Action
