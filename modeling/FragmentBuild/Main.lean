import FragmentBuild.Commands
import FragmentBuild.World

/-! The program on a real machine. Each request is handed to the operating system and its answer
handed back. Tools are not started from here: a request for one is refused. -/
namespace FragmentBuild

def SystemError.ofIOError : IO.Error → SystemError
  | .noFileOrDirectory .. | .noSuchThing .. => .notFound
  | .permissionDenied .. => .permissionDenied
  | .alreadyExists .. => .alreadyExists
  | .unsatisfiedConstraints .. => .notEmpty
  | .inappropriateType .. => .isADirectory
  | .invalidArgument .. => .invalidArgument
  | .resourceBusy .. => .busy
  | error => .other (toString error)

def attempt (action : IO α) : BaseIO (Except SystemError α) := do
  match ← action.toBaseIO with
  | .ok value => return .ok value
  | .error error => return .error (.ofIOError error)

def succeeds (action : IO α) : BaseIO Bool := return (← action.toBaseIO) matches .ok _

def randomName : BaseIO String := do
  let mut number := 0
  for _ in [0:6] do
    number := number * 62 + (← IO.rand 0 61)
  return countedName number

/-- Runs a program. The link plan grows on the way. -/
def execute (plan : LinkPlan) : Program α → IO α
  | .done value => return value
  | .ask .workingDirectory next => do
    execute plan (next (← attempt do return ⟨(← IO.currentDir).toString⟩))
  | .ask (.environment name) next => do
    execute plan (next ((← IO.getEnv name).map OsText.ofText))
  | .ask (.makeDirectories path) next => do
    execute plan (next (← attempt (IO.FS.createDirAll ⟨path.display⟩)))
  | .ask (.makeDirectory path) next => do
    execute plan (next (← attempt (IO.FS.createDir ⟨path.display⟩)))
  | .ask (.createFile path) next => do
    execute plan (next (← attempt do let _ ← IO.FS.Handle.mk ⟨path.display⟩ .writeNew))
  | .ask (.write path contents) next => do
    execute plan (next (← attempt (IO.FS.writeBinFile ⟨path.display⟩ contents)))
  | .ask (.read path) next => do
    execute plan (next (← attempt (IO.FS.readBinFile ⟨path.display⟩)))
  | .ask (.isPresent path) next => do
    execute plan (next (← succeeds (IO.FS.Handle.mk ⟨path.display⟩ .read)))
  | .ask (.isFile path) next => do
    execute plan (next (← succeeds (IO.FS.readBinFile ⟨path.display⟩)))
  | .ask (.rename source target) next => do
    execute plan (next (← attempt (IO.FS.rename ⟨source.display⟩ ⟨target.display⟩)))
  | .ask (.copy source target) next => do
    execute plan (next (← attempt do
      IO.FS.writeBinFile ⟨target.display⟩ (← IO.FS.readBinFile ⟨source.display⟩)))
  | .ask (.removeFile path) next => do
    execute plan (next (← attempt (IO.FS.removeFile ⟨path.display⟩)))
  | .ask (.removeTree path) next => do
    execute plan (next (← attempt (IO.FS.removeDirAll ⟨path.display⟩)))
  | .ask (.discardFile path) next => do
    let _ ← attempt (IO.FS.removeFile ⟨path.display⟩)
    execute plan (next ())
  | .ask (.discardTree path) next => do
    let _ ← attempt (IO.FS.removeDirAll ⟨path.display⟩)
    execute plan (next ())
  | .ask .freshName next => do execute plan (next (← randomName))
  | .ask (.call _) next => do execute plan (next (.error (.other "tools are not started here")))
  | .ask (.report event) next => do
    IO.eprint (event.render false)
    execute plan (next ())
  | .ask (.link archive) next => execute (plan.register archive) (next ())
  | .ask .linkPlan next => execute plan (next plan)
  | .ask (.print text) next => do
    IO.print text
    execute plan (next ())

end FragmentBuild

def main (words : List String) : IO UInt32 := do
  let ending ← FragmentBuild.execute .empty (FragmentBuild.perform words)
  IO.print ending.output
  IO.eprint ending.diagnostics
  return UInt32.ofNat ending.code
