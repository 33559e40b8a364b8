import FragmentBuild.Shell.Launch

/-! What the first word of a command means: a function, a command of the shell itself, or a
program. -/
namespace FragmentBuild.Shell

inductive Rank where
  | plain
  /-- The search path has no say in what it means. -/
  | regular
  /-- A fault in it ends a script, and variables set for it stay. -/
  | special
  deriving DecidableEq

structure Builtin where
  name : String
  rank : Rank
  /-- Whether its arguments may be assignments. -/
  assigns : Bool := false

def builtins : List Builtin :=
  [⟨".", .special, false⟩, ⟨":", .special, false⟩, ⟨"[", .plain, false⟩, ⟨"alias", .regular, true⟩,
    ⟨"bg", .regular, false⟩, ⟨"break", .special, false⟩, ⟨"cd", .regular, false⟩,
    ⟨"chdir", .plain, false⟩, ⟨"command", .regular, false⟩, ⟨"continue", .special, false⟩,
    ⟨"echo", .plain, false⟩, ⟨"eval", .special, false⟩, ⟨"exec", .special, false⟩,
    ⟨"exit", .special, false⟩, ⟨"export", .special, true⟩, ⟨"false", .regular, false⟩,
    ⟨"fg", .regular, false⟩, ⟨"getopts", .regular, false⟩, ⟨"hash", .plain, false⟩,
    ⟨"jobs", .regular, false⟩, ⟨"kill", .regular, false⟩, ⟨"local", .special, true⟩,
    ⟨"printf", .plain, false⟩, ⟨"pwd", .regular, false⟩, ⟨"read", .regular, false⟩,
    ⟨"readonly", .special, true⟩, ⟨"return", .special, false⟩, ⟨"set", .special, false⟩,
    ⟨"shift", .special, false⟩, ⟨"test", .plain, false⟩, ⟨"times", .special, false⟩,
    ⟨"trap", .special, false⟩, ⟨"true", .regular, false⟩, ⟨"type", .plain, false⟩,
    ⟨"ulimit", .plain, false⟩, ⟨"umask", .regular, false⟩, ⟨"unalias", .regular, false⟩,
    ⟨"unset", .special, false⟩, ⟨"wait", .regular, false⟩]

def builtin? (name : Bytes) : Option Builtin :=
  builtins.find? fun builtin => builtin.name.toList == name

inductive Meaning where
  | function (body : Command)
  | builtin (builtin : Builtin)
  | program (file : Bytes)
  | unknown (error : SystemError)

/-- The directories that are searched if those of the script are not to be. -/
def usualSearchPath : Bytes :=
  "/usr/local/sbin:/usr/local/bin:/usr/sbin:/usr/bin:/sbin:/bin".toList

namespace Action

/-- What a name means without a look at the disk. -/
def meaningAtHand? (withFunctions : Bool) (name : Bytes) : Action (Option Meaning) := do
  let process ← process
  if name.contains '/' then return some (.program name)
  match process.functions.lookup name, builtin? name with
  | some body, builtin =>
    if withFunctions then return some (.function body) else return builtin.map .builtin
  | none, builtin => return builtin.map .builtin

/-- What a name means. The file that is found for it is kept in mind, unless a search path of its
own is given. -/
def meaning (withFunctions : Bool) (searchPath : Option Bytes) (name : Bytes) : Action Meaning := do
  match ← meaningAtHand? withFunctions name with
  | some meaning => return meaning
  | none => do
    let own ← value? "PATH".toList
    let state ← get
    match searchPath.or own with
    | none => return .unknown .notFound
    | some directories =>
      match Launch.fileFor state.system.disk state.process.working directories name with
      | .error error => return .unknown error
      | .ok file => do
        if searchPath.isNone then
          change fun process => { process with found := setEntry name file process.found }
        return .program file

def refusalOf (error : SystemError) : Bytes :=
  ofString (match error with
    | .notFound | .notADirectory => "not found"
    | error => error.description)

end Action

end FragmentBuild.Shell
