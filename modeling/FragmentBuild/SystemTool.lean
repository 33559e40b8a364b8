import FragmentBuild.Shell.Run

/-! Tools that are programs of the machine. A program that can be started ends with a code or
is ended by a signal; what it prints is read as text. -/
namespace FragmentBuild.SystemTool

open Shell

def hasNul (bytes : ByteArray) : Bool := bytes.toList.contains 0

/-- Whether a word of an invocation cannot be handed to a program. -/
def isUnspeakable (invocation : Invocation) : Bool :=
  hasNul invocation.program.toUTF8 || invocation.arguments.any hasNul ||
    (invocation.environment.any fun entry => hasNul entry.1.toUTF8 || hasNul entry.2) ||
    match invocation.directory with
    | some path => hasNul path.text.bytes
    | none => false

def isOversized (invocation : Invocation) : Bool :=
  (invocation.arguments.any fun word => Action.wordLimit < word.size) ||
    invocation.environment.any fun entry =>
      Action.wordLimit < entry.1.utf8ByteSize + 1 + entry.2.size

def environment (invocation : Invocation) (machine : Machine) : List (Bytes × Bytes) :=
  let inherited := machine.environment.map fun entry =>
    (ofString entry.1, ofByteArray entry.2.bytes)
  let all := invocation.environment.foldl (fun environment entry =>
    setEntry (ofString entry.1) (ofByteArray entry.2) environment) inherited
  all.mergeSort fun a b => inOrder a.1 b.1

def workingDirectory (invocation : Invocation) (machine : Machine) :
    Except SystemError (Option Location) :=
  match invocation.directory with
  | none => .ok machine.working
  | some path =>
    match machine.disk.reach machine.working path with
    | .error error => .error error
    | .ok (location, .directory) => .ok (some location)
    | .ok _ => .error .notADirectory

/-- What an invocation starts. A file that does not say what it is for is a script only if it has
been found in a search path that the invocation itself gives. -/
def launch (invocation : Invocation) (machine : Machine) (working : Option Location)
    (searchPath : Bytes) : Except SystemError Launch :=
  let name := ofString invocation.program
  let arguments := invocation.arguments.map ofByteArray
  let asScript := (invocation.environment.lookup "PATH").isSome && !name.contains '/'
  let files := if name.isEmpty then [] else Launch.candidates searchPath name
  Launch.first machine.disk working asScript name arguments files

def firstProcess : Nat := 1000

/-- What a tool starts in: nothing can be read from its input, and what it prints is kept. -/
def start (machine : Machine) (working : Option Location) (name : Bytes) : State :=
  let system : System :=
    { disk := machine.disk, nextProcess := firstProcess + 1, alive := [firstProcess] }
  let (input, system) := system.addFile { target := .nothing, isWritable := false }
  let (_, _, output, system) := system.addPipe none
  let (_, _, diagnostics, system) := system.addPipe none
  { system
    process :=
      { number := firstProcess, root := firstProcess, name, working
        descriptors := [(0, input), (1, output), (2, diagnostics)] } }

def report (ending : Shell.Ending) (system : System) : Report :=
  let written := fun (pipe : Nat) =>
    match system.pipes[pipe]? with
    | some pipe => textOf (toByteArray (pipe.unread ++ pipe.written.reverse))
    | none => ""
  let code : Option Nat :=
    match ending with
    | .exited _ => some ending.status
    | .signalled _ => none
  { success := code == some 0, code := code.map Int.ofNat, output := written 0, diagnostics := written 1 }

def tool : Tool := fun invocation machine =>
  let launched : Except SystemError (Launch × State) := do
    if isUnspeakable invocation then throw .nulInWord
    let working ← workingDirectory invocation machine
    let searchPath := (environment invocation machine).lookup "PATH".toList
    let launch ← launch invocation machine working (searchPath.getD [])
    if isOversized invocation then throw .argumentsTooLong
    return (launch, start machine working launch.name)
  match launched with
  | .error error => (.error error, machine.disk)
  | .ok (launch, state) =>
    let (result, state) :=
      (Action.runProgram launch (environment invocation machine)).run.run state
    let ending : Shell.Ending :=
      match result with
      | .ok ending | .error (.ended ending) => ending
      | .error _ => .exited state.process.status
    (.ok (report ending state.system), state.system.disk)

end FragmentBuild.SystemTool
