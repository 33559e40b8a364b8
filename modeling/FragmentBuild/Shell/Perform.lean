import FragmentBuild.Shell.Describe
import FragmentBuild.Shell.Jobs
import FragmentBuild.Shell.Start

/-! Simple commands: what their words come to, what the first word means, and what is done then. -/
namespace FragmentBuild.Shell.Action

/-- Prints texts after each other. A first argument `-n` leaves out the line end. -/
def echo (arguments : List Bytes) : Action Nat := do
  let (arguments, isOpen) :=
    match arguments with
    | ['-', 'n'] :: rest => (rest, true)
    | all => (all, false)
  let line := [' '].intercalate arguments
  let (text, ended) := unescaped (line.length + 1) line
  print (if isOpen || ended then text else text ++ ['\n'])
  return 0

def printFormat (arguments : List Bytes) : Action Nat := do
  match (← options "" arguments).words with
  | [] => refuseText "usage: printf format [arg ...]"
  | format :: arguments => do
    let printed := formatted format arguments
    print printed.output.reverse
    printed.complaints.forM complain
    if printed.failed then
      setStatus 2
      throw .error
    return if printed.complaints.isEmpty then 0 else 1

/-- Leaves loops, or goes on with their next round. -/
def leaveLoops (isOver : Bool) (arguments : List Bytes) : Action Nat := do
  let levels ←
    match arguments with
    | [] => pure 1
    | word :: _ => do
      let levels ← natural word
      if levels = 0 then refuseNumber word
      pure levels
  let levels := min levels (← process).loops
  if 0 < levels then
    change ({ · with skip := if isOver then .breaking levels else .continuing levels })
  return 0

def leaveFunction (arguments : List Bytes) : Action Nat := do
  let status ←
    match arguments with
    | [] => pure (← process).status
    | word :: _ => natural word
  change ({ · with skip := .returning !arguments.isEmpty })
  return status

def leaveShell (arguments : List Bytes) : Action Nat := do
  if let word :: _ := arguments then
    let status ← natural word
    change ({ · with trapped := some status })
  else
    let process ← process
    change ({ · with trapped := some (process.trapped.getD process.status) })
  throw .exit

def bracket (arguments : List Bytes) : Action Nat := do
  if (arguments.getLast?.bind List.head?) ≠ some ']' then refuseText "missing ]"
  Condition.status arguments.dropLast

def tellMeaning (arguments : List Bytes) : Action Nat := do
  let chosen ← options "pvV" arguments
  let searchPath := if chosen.has 'p' then some usualSearchPath else none
  match chosen.words with
  | name :: _ =>
    if chosen.has 'V' || chosen.has 'v' then
      Describe.describe (chosen.has 'V') searchPath name
    else return 0
  | [] => return 0

def scriptFile (name : Bytes) : Action Bytes := do
  if name.contains '/' then return name
  let state ← get
  let files := Launch.candidates ((← value? "PATH".toList).getD []) name
  match files.find? fun file =>
    state.system.disk.isFile state.process.working (shellPath file) with
  | some file => return file
  | none => refuse (name ++ ofString ": not found")

variable (run : Mode → Command → Action Nat)

def source (arguments : List Bytes) : Action Nat := do
  match (← options "" arguments).words with
  | [] => return 0
  | name :: _ => do
    let file ← scriptFile name
    let text ← fileText file
    change ({ · with context := some file })
    let status ← script run {} true text
    change fun process =>
      match process.skip with
      | .returning _ => { process with skip := .nothing }
      | _ => process
    return status

def evaluateWords (mode : Mode) (arguments : List Bytes) : Action Nat := do
  if arguments.isEmpty then return 0
  script run { tested := mode.tested } false ([' '].intercalate arguments)

def replace (arguments : List Bytes) : Action Nat := do
  match (← options "" arguments).words with
  | [] => return 0
  | name :: arguments => execute run none name arguments

def perform (mode : Mode) (name : String) (arguments : List Bytes) : Action Nat :=
  match name with
  | ":" | "true" => return 0
  | "false" => return 1
  | "." => source run arguments
  | "[" => bracket arguments
  | "alias" => Describe.aliases arguments
  | "bg" | "fg" => Jobs.resume arguments
  | "break" => leaveLoops true arguments
  | "continue" => leaveLoops false arguments
  | "cd" | "chdir" => Directory.goHome arguments
  | "command" => tellMeaning arguments
  | "echo" => echo arguments
  | "eval" => evaluateWords run mode arguments
  | "exec" => replace run arguments
  | "exit" => leaveShell arguments
  | "export" => Declare.markAll .exported arguments
  | "getopts" => Declare.getOptions arguments
  | "hash" => Describe.remember arguments
  | "jobs" => Jobs.jobs arguments
  | "kill" => Jobs.kill arguments
  | "local" => Declare.makeLocals arguments
  | "printf" => printFormat arguments
  | "pwd" => Directory.tell arguments
  | "read" => Declare.read arguments
  | "readonly" => Declare.markAll .readOnly arguments
  | "return" => leaveFunction arguments
  | "set" => Declare.set arguments
  | "shift" => Declare.shift arguments
  | "test" => Condition.status arguments
  | "times" => Jobs.times
  | "trap" => Jobs.trap arguments
  | "type" => Describe.describeAll arguments
  | "ulimit" => Jobs.limit arguments
  | "umask" => Directory.mask arguments
  | "unalias" => Describe.dropAliases arguments
  | "unset" => Declare.unsetAll arguments
  | "wait" => Jobs.wait run arguments
  | _ => return 127

/-- Carries out a command of the shell itself, and prints what it has to print. A fault in it is
only a status, unless it is a special one. -/
def carryOut (mode : Mode) (isSpecial : Bool) (name : String) (shown : Bytes)
    (arguments : List Bytes) : Action Nat := do
  let before ← process
  change ({ · with context := some shown })
  let result ← attempt (perform run mode name arguments)
  if let .error (.ended ending) := result then throw (.ended ending)
  let fault ← flush
  let result ←
    match result, fault with
    | .ok status, some _ => do
      complain (shown ++ ofString ": I/O error")
      pure (.ok (status ||| 1))
    | result, _ => pure result
  change ({ · with context := before.context })
  match result with
  | .ok status => do
    setStatus status
    return status
  | .error .error => do
    if isSpecial then throw .error
    dropFrames before.frames.length
    return (← process).status
  | .error unwind => throw unwind

def callLimit : Nat := 1000

def call (mode : Mode) (body : Command) (arguments : List Bytes) : Action Nat := do
  let before ← process
  if callLimit ≤ before.calls then
    refuseText "Maximum function recursion depth (1000) reached"
  change ({ · with
    arguments, loops := 0, optionIndex := 1, optionPlace := none, calls := before.calls + 1 })
  andThen
    (do let _ ← run { tested := mode.tested } body)
    (change fun process =>
      { process with
        arguments := before.arguments
        loops := before.loops
        optionIndex := before.optionIndex
        optionPlace := before.optionPlace
        calls := before.calls
        skip :=
          match process.skip with
          | .returning _ => .nothing
          | skip => skip })
  return (← process).status

def nextFields : List Word → Action (List Bytes × List Word)
  | [] => return ([], [])
  | word :: rest => do
    match ← fields (capture run) word with
    | [] => nextFields rest
    | found => return (found, rest)

/-- The words of a command as far as they have been expanded. -/
structure Head where
  /-- Words before the name of the command, which say how it is looked for. -/
  passed : List Bytes := []
  /-- The name of the command, and words after it. -/
  words : List Bytes
  builtin : Option Builtin := none
  /-- Whether the first command of the shell itself among the words is a special one. -/
  isSpecial : Option Bool := none
  withFunctions : Bool := true
  searchPath : Option Bytes := none

namespace Head

/-- Whether variables that are set for the command are local to it. -/
def isLocal (head : Head) : Bool := !head.words.isEmpty && head.isSpecial != some true

def isExec (head : Head) : Bool := head.builtin.any (·.name == "exec")

end Head

/-- Passes over options of a command that only say how another one is looked for: how many words
that are, and whether the usual search path is asked for. There is no result if the options say
something else. -/
def passOptions (isUsual : Bool) (left : List Bytes) (rest : List Word) (count : Nat) :
    Nat → Action (Option (Bool × Nat) × List Bytes × List Word)
  | 0 => return (none, left, rest)
  | fuel + 1 => do
    let enough := fun (count : Nat) (left : List Bytes) (rest : List Word) => do
      if count < left.length then return (left, rest)
      else
        let (more, rest) ← nextFields run rest
        return (left ++ more, rest)
    let (left, rest) ← enough count left rest
    match left[count]? with
    | none => return (none, left, rest)
    | some ['-', '-'] => do
      let (left, rest) ← enough (count + 1) left rest
      return (if count + 1 < left.length then some (isUsual, count + 1) else none, left, rest)
    | some ('-' :: c :: letters) =>
      if (c :: letters).all (· == 'p') then passOptions true left rest (count + 1) fuel
      else return (none, left, rest)
    | some _ => return (some (isUsual, count), left, rest)

def headFrom (head : Head) (rest : List Word) : Nat → Action (Head × List Word)
  | 0 => return (head, rest)
  | fuel + 1 => do
    match head.words with
    | [] => return (head, rest)
    | name :: left => do
      match ← meaningAtHand? head.withFunctions name with
      | some (.builtin builtin) => do
        let isSpecial := head.isSpecial.or (some (builtin.rank == .special))
        let head := { head with builtin := some builtin, isSpecial }
        if builtin.name ≠ "command" then return (head, rest)
        match ← passOptions run head.searchPath.isSome left rest 0 (fuel + left.length) with
        | (none, left, rest) => return ({ head with words := name :: left }, rest)
        | (some (isUsual, count), left, rest) =>
          headFrom { head with
            passed := head.passed ++ name :: left.take count
            words := left.drop count
            withFunctions := false
            searchPath := if isUsual then some usualSearchPath else none } rest fuel
      | _ => return ({ head with builtin := none }, rest)

def headOf (words : List Word) : Action Head := do
  let (first, rest) ← nextFields run words
  let (head, rest) ← headFrom run { words := first } rest (words.length + first.length + 100)
  let assigns := head.builtin.any (·.assigns)
  let more ← rest.mapM fun word => do
    if assigns && word.isAssignment then return [← text (capture run) { assigns := true } word]
    else fields (capture run) word
  return { head with words := head.words ++ more.flatten }

def traceFront : Action Bytes := do
  let source := (← value? "PS4".toList).getD []
  let reading := Reader.readText (fun _ => return none)
  if !source.any ("$\x60\\".toList.contains ·) then return source
  match reading.run { rest := source } with
  | .error _ => return source
  | .ok (word, _) => do
    change ({ · with isTracing := true })
    let shown ← text (capture run) { isQuoted := true } word
    change ({ · with isTracing := false })
    return shown

def trace (changed : Changed) (words : List Bytes) : Action Unit := do
  let process ← process
  if process.options.contains "xtrace" && !process.isTracing then
    let line := (← traceFront run) ++ [' '].intercalate words ++ ['\n']
    match changed.lookup 2 with
    | some (some file) => let _ ← writeFile file line
    | _ => writeError line

def assignAll (isLocal exports : Bool) (assignments : List Word) : Action (List Bytes) :=
  assignments.mapM fun word => do
    let text ← text (capture run) { assigns := true } word
    let (name, value) := Declare.splitAssignment text
    let value := value.getD []
    if isLocal then makeLocal name (some value) true else setVariable name value exports
    return text

def obey (mode : Mode) (head : Head) : Action Nat := do
  match head.words with
  | [] => return (← process).substituted
  | name :: arguments => do
    let found ←
      match head.builtin with
      | some builtin =>
        if builtin.rank = .plain then meaning head.withFunctions head.searchPath name
        else pure (.builtin builtin)
      | none => meaning head.withFunctions head.searchPath name
    match found with
    | .builtin builtin =>
      carryOut run mode (head.isSpecial == some true) builtin.name name arguments
    | .function body => call run mode body arguments
    | .program _ => external run mode head.searchPath name arguments
    | .unknown error => do
      complain (name ++ [':', ' '] ++ refusalOf error)
      return 127

/-- Carries out a command without commands of its own. -/
def simple (mode : Mode) (line : Nat) (assignments words : List Word)
    (redirections : List Redirection) : Action Nat := do
  change ({ · with line, substituted := 0 })
  let head ← headOf run words
  let frames := (← process).frames
  if head.isLocal then change ({ · with frames := [] :: frames })
  let openings ← openings (capture run) redirections
  let changed ← led openings
  let status ← andThen
    (do
      if !(← tryRedirect (capture run) openings) then
        setStatus 2
        if head.isSpecial = some true then throw .error
        return 2
      let isExporting := head.isExec && 1 < head.words.length
      let texts ← assignAll run head.isLocal isExporting assignments
      trace run changed (texts ++ head.passed ++ head.words)
      obey run mode head)
    (if head.isExec then return else leadBack changed)
  dropFrames frames.length
  return status

end FragmentBuild.Shell.Action
