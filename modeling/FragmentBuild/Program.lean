import FragmentBuild.Failure
import FragmentBuild.Invocation
import FragmentBuild.LinkPlan
import FragmentBuild.Log

/-! Programs as trees of requests. A program asks its surroundings for one thing after the
other and goes on with each answer, so that it can be run in any world: one that works, one
that fails at a chosen request, or one that other programs share. -/
namespace FragmentBuild

inductive Request where
  | workingDirectory
  | environment (name : String)
  | makeDirectories (path : Path)
  /-- Makes a directory that must not exist. -/
  | makeDirectory (path : Path)
  /-- Makes an empty file that must not exist. -/
  | createFile (path : Path)
  | write (path : Path) (contents : ByteArray)
  | read (path : Path)
  | isPresent (path : Path)
  | isFile (path : Path)
  | rename (source target : Path)
  | copy (source target : Path)
  | removeFile (path : Path)
  | removeTree (path : Path)
  /-- Removes a file that is given up; nobody looks at whether it worked. -/
  | discardFile (path : Path)
  | discardTree (path : Path)
  /-- Six letters and digits for the name of something temporary. -/
  | freshName
  | call (invocation : Invocation)
  | report (event : Event)
  /-- Hands an archive to the linker. -/
  | link (archive : Path)
  /-- What the linker has been handed so far. -/
  | linkPlan
  | print (text : String)

@[reducible] def Request.Answer : Request → Type
  | .workingDirectory => Except SystemError Path
  | .environment _ => Option OsText
  | .makeDirectories _ | .makeDirectory _ | .createFile _ | .write _ _ => Except SystemError Unit
  | .read _ => Except SystemError ByteArray
  | .isPresent _ | .isFile _ => Bool
  | .rename _ _ | .copy _ _ | .removeFile _ | .removeTree _ => Except SystemError Unit
  | .discardFile _ | .discardTree _ => Unit
  | .freshName => String
  | .call _ => Except SystemError Report
  | .report _ | .link _ | .print _ => Unit
  | .linkPlan => LinkPlan

inductive Program (α : Type) where
  | done (value : α)
  | ask (request : Request) (next : request.Answer → Program α)

namespace Program

def bind : Program α → (α → Program β) → Program β
  | .done value, next => next value
  | .ask request resume, next => .ask request fun answer => (resume answer).bind next

instance : Monad Program where
  pure := .done
  bind := bind

theorem bind_done (program : Program α) : program.bind .done = program := by
  induction program with
  | done => rfl
  | ask request next ih => simp [bind, ih]

theorem bind_bind (program : Program α) (first : α → Program β) (second : β → Program γ) :
    (program.bind first).bind second = program.bind fun value => (first value).bind second := by
  induction program with
  | done => rfl
  | ask request next ih => simp [bind, ih]

instance : LawfulMonad Program := LawfulMonad.mk' Program
  (fun program => bind_done program) (fun _ _ => rfl) bind_bind

def request (request : Request) : Program request.Answer := .ask request .done

def report (verbosity : Verbosity) (event : Event) : Program Unit :=
  if verbosity.shows event then request (.report event) else pure ()

def reportAll (verbosity : Verbosity) : List Event → Program Unit
  | [] => pure ()
  | event :: rest => do report verbosity event; reportAll verbosity rest

end Program

/-- A program that can fail. -/
abbrev Task (α : Type) := ExceptT Failure Program α

namespace Task

def fail (failure : Failure) : Task α := throw failure

/-- A request on a path, whose refusal is a failure to access `path`. -/
def orInaccessible (path : Path) (program : Program (Except SystemError α)) : Task α :=
  ExceptT.mk do
    match ← program with
    | .ok value => return .ok value
    | .error cause => return .error (.inaccessible path cause)

def requestAll : List Request → Program Unit
  | [] => pure ()
  | request :: rest => do let _ ← Program.request request; requestAll rest

/-- Runs a task and then gives up what it needed, whether it failed or not. -/
def thenDiscard (task : Task α) (discarded : List Request) : Task α :=
  ExceptT.mk do
    let result ← task.run
    requestAll discarded
    return result

/-- Gives up what a task was to hand on, if the task fails. -/
def onFailure (task : Task α) (discarded : List Request) : Task α :=
  ExceptT.mk do
    match ← task.run with
    | .ok value => return .ok value
    | .error failure =>
      requestAll discarded
      return .error failure

end Task

end FragmentBuild
