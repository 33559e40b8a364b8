import FragmentBuild.Shell.Children
import FragmentBuild.Shell.Declare
import FragmentBuild.Shell.Directory
import FragmentBuild.Shell.Links
import FragmentBuild.Shell.Listing
import FragmentBuild.Shell.Lookup
import FragmentBuild.Shell.NewDirectories
import FragmentBuild.Shell.Removals

/-! Programs: what a process does that has just been started, and how a shell starts others. -/
namespace FragmentBuild.Shell

/-- The variables that a shell makes of what it inherits: names before the first equals sign, and
only those that are well made. Later ones count. -/
def bindingsOf (environment : List (Bytes × Bytes)) : List (Bytes × Variable) :=
  environment.foldl (fun bindings (name, value) =>
    let (name, rest) := (name ++ '=' :: value).span (· != '=')
    if isName name then
      setEntry name { value := some (rest.drop 1), isExported := true } bindings
    else bindings) []

/-- The variables that a shell has from the start, unless it inherits them. -/
def usualBindings : List (String × Bytes) :=
  [("PATH", usualSearchPath), ("PS1", "# ".toList), ("PS2", "> ".toList), ("PS4", "+ ".toList)]

def ownBindings (process : Process) : List (String × Bytes) :=
  [("IFS", [' ', '\t', '\n']), ("OPTIND", ['1']), ("PPID", numeral process.parent)]

namespace Action

def prepareShell (environment : List (Bytes × Bytes)) : Action Unit := do
  change fun process =>
    let inherited := bindingsOf environment
    let usual := usualBindings.filter fun entry => (inherited.lookup entry.1.toList).isNone
    let bindings := (usual ++ ownBindings process).foldl (fun bindings (name, value) =>
      setEntry name.toList { value := some value : Variable } bindings) inherited
    { process with bindings }
  let state ← get
  let process := state.process
  let inherited := ((process.bindings.lookup "PWD".toList).bind (·.value)).getD []
  let leadsHere :=
    match state.system.disk.reach process.working (shellPath inherited) with
    | .ok (location, .directory) => some location == process.working
    | _ => false
  if process.working.isNone then
    writeError (process.name ++ ofString ": 0: getcwd() failed: No such file or directory\n")
  let directory :=
    if inherited.head? = some '/' && leadsHere then inherited else Directory.physical process
  Directory.settle directory false

/-- Carries out the options that a shell is started with, and gives the words after them and
whether the first of those is a script. -/
def startOptions (isScript : Bool) : List Bytes → Action (List Bytes × Bool)
  | [] => return ([], isScript)
  | ['-'] :: rest | ['-', '-'] :: rest => return (rest, isScript)
  | (sign :: letters) :: rest => do
    if sign ≠ '-' ∧ sign ≠ '+' then return ((sign :: letters) :: rest, isScript)
    let isScript := isScript || letters.contains 'c'
    let letters := letters.filter fun letter => letter != 'c' && letter != 'l'
    match ← Declare.setLetters (sign == '-') rest.head? letters, rest with
    | true, _ :: rest => startOptions isScript rest
    | _, rest => startOptions isScript rest
  | words => return (words, isScript)

variable (run : Mode → Command → Action Nat)

def commandLoop (text : Bytes) : Action Unit := do
  change ({ · with line := 1 })
  let _ ← script run {} true text
  change fun process => { process with skip := .nothing }

def inputText : Action Bytes := do
  let state ← get
  match state.process.descriptors.lookup 0 with
  | none => return []
  | some file =>
    match state.system.readAll file with
    | .error _ => return []
    | .ok (text, system) => do
      set { state with system }
      return text

def fileText (file : Bytes) : Action Bytes := do
  let opened ← openFile .read file
  let state ← get
  match state.system.readAll opened with
  | .error _ => return []
  | .ok (text, _) => return text

def shell (environment : List (Bytes × Bytes)) (arguments : List Bytes) : Action Unit := do
  prepareShell environment
  change ({ · with line := 0 })
  let (words, isScript) ← startOptions false arguments
  if words.isEmpty then
    if isScript then refuseText "-c requires an argument"
    Declare.setOption true "stdin"
  let readsInput ← hasOption "stdin"
  let named := fun (words : List Bytes) =>
    change fun process =>
      { process with name := words.headD process.name, arguments := words.drop 1 }
  if isScript then
    named (words.drop 1)
    change ({ · with line := 1 })
    let _ ← script run { exits := !readsInput } false (words.headD [])
    if readsInput then commandLoop run (← inputText)
  else if readsInput then
    change ({ · with arguments := words })
    commandLoop run (← inputText)
  else
    let text ← fileText (words.headD [])
    named words
    commandLoop run text

def freshProcess (before : Process) (name : Bytes) : Process :=
  { number := before.number
    parent := before.parent
    root := before.number
    name
    working := before.working
    descriptors := before.descriptors
    traps := before.traps.filter (·.2.isEmpty)
    mask := before.mask }

def statusOf (result : Except Unwind Nat) : Ending :=
  match result with
  | .ok status => .exited status
  | .error (.ended ending) => ending
  | .error _ => .exited 1

/-- The options and variables that come before the program to be run with them. -/
def environmentWords (environment : List (Bytes × Bytes)) :
    List Bytes → List (Bytes × Bytes) × List Bytes
  | ['-', 'i'] :: rest | ['-'] :: rest => environmentWords [] rest
  | ['-', 'u'] :: name :: rest => environmentWords (environment.filter (·.1 != name)) rest
  | ['-', '-'] :: rest => assigned environment rest
  | words => assigned environment words
where
  assigned (environment : List (Bytes × Bytes)) : List Bytes → List (Bytes × Bytes) × List Bytes
    | [] => (environment, [])
    | word :: rest =>
      let (name, value) := word.span (· != '=')
      if value.isEmpty then (environment, word :: rest)
      else assigned (setEntry name (value.drop 1) environment) rest

/-- Turns the process into one that runs a program from its beginning, up to its end. -/
def become (launch : Launch) (environment : List (Bytes × Bytes)) : Nat → Action Ending
  | 0 => return .exited 126
  | fuel + 1 => do
    let ⟨utility, name, arguments⟩ := launch
    change (freshProcess · name)
    match utility with
    | .succeed => return .exited 0
    | .fail => return .exited 1
    | .concatenate => return statusOf (← attempt (Listing.program arguments))
    | .makeDirectories => return statusOf (← attempt (NewDirectories.program arguments))
    | .makeLinks => return statusOf (← attempt (Links.program arguments))
    | .remove => return statusOf (← attempt (Removals.program arguments))
    | .shell => asEnd run (shell run environment arguments)
    | .environment => do
      let (environment, words) := environmentWords environment arguments
      match words with
      | [] => do
        let lines := environment.flatMap fun (name, value) => name ++ '=' :: value ++ ['\n']
        return statusOf ((← attempt (write 1 lines)).map fun _ => 0)
      | program :: words => do
        let state ← get
        let searchPath := (environment.lookup "PATH".toList).getD usualSearchPath
        let files := if program.isEmpty then [] else Launch.candidates searchPath program
        match Launch.first state.system.disk state.process.working true program words files with
        | .ok launch => become launch environment fuel
        | .error error => do
          Report.complainAbout (Shell.inQuotes program) error
          return .exited (if error = .notFound then 127 else 126)

/-- What the first file that can be started runs. All others are tried, and what the last of them
that is there lacks is what is wrong. -/
def launchOf (disk : Disk) (working : Option Location) (name : Bytes) (arguments : List Bytes)
    (error : SystemError) : List Bytes → Except SystemError Launch
  | [] => .error error
  | file :: rest =>
    match Launch.ofPath disk working Launch.interpreterLimit file name arguments with
    | .ok launch => .ok launch
    | .error .notExecutable => .ok (Launch.ofScript file arguments)
    | .error .notFound | .error .notADirectory =>
      launchOf disk working name arguments error rest
    | .error other => launchOf disk working name arguments other rest

def wordLimit : Nat := 131071

def findLaunch (searchPath : Option Bytes) (name : Bytes) (arguments : List Bytes) :
    Action (Except SystemError Launch) := do
  let own ← value? "PATH".toList
  let state ← get
  let files := Launch.candidates ((searchPath.or own).getD []) name
  let files := if (searchPath.or own).isNone && !name.contains '/' then [] else files
  if arguments.any fun word => wordLimit < word.length then return .error .argumentsTooLong
  return launchOf state.system.disk state.process.working name arguments .notFound files

def refuseLaunch (name : Bytes) (error : SystemError) : Action Nat := do
  complain (name ++ [':', ' '] ++ refusalOf error)
  return match error with
    | .notFound | .notADirectory | .nameTooLong => 127
    | _ => 126

/-- How many programs may start each other without a shell between them. -/
def programLimit : Nat := 100

def execute (searchPath : Option Bytes) (name : Bytes) (arguments : List Bytes) : Action α := do
  match ← findLaunch searchPath name arguments with
  | .error error => do
    setStatus (← refuseLaunch name error)
    throw .finish
  | .ok launch => do
    let environment := inherited (← process)
    throw (.ended (← become run launch environment programLimit))

def hasTraps : Action Bool := return (← process).traps.any fun entry => !entry.2.isEmpty

/-- Runs a program, in a process of its own unless this one ends with it. -/
def external (mode : Mode) (searchPath : Option Bytes) (name : Bytes) (arguments : List Bytes) :
    Action Nat := do
  runJobs run none jobLimit
  if mode.exits && !(← hasTraps) then execute run searchPath name arguments
  else
    match ← findLaunch searchPath name arguments with
    | .error error => refuseLaunch name error
    | .ok launch => do
      let _ ← takePlace
      let environment := inherited (← process)
      let child := { ← process with parent := (← process).number, number := ← newNumber }
      let ending ← inProcess child do
        let ending ← become run launch environment programLimit
        runJobs run none jobLimit
        return ending
      takeSignals
      report ending

end Action

end FragmentBuild.Shell
