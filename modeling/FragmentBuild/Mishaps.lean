import FragmentBuild.World

/-! Runs in which requests fail. A world answers every request as its machine allows. In a run
with mishaps a request may also be refused although the machine could carry it out, and may
then have done part of its work, or harm. A run keeps a record of what was asked and
answered. -/
namespace FragmentBuild

/-- The answer to a request that is refused. Whether something that was given up could be
removed is not told, so nobody can be told that it was not. -/
def Request.refusal? (cause : SystemError) : (request : Request) → Option request.Answer
  | .workingDirectory => some (.error cause)
  | .makeDirectories _ | .makeDirectory _ | .createFile _ | .write _ _ => some (.error cause)
  | .read _ => some (.error cause)
  | .rename _ _ | .copy _ _ | .removeFile _ | .removeTree _ => some (.error cause)
  | _ => none

/-- A request with its answer, and the machine before and after it. -/
structure Exchange where
  request : Request
  answer : request.Answer
  before : Machine
  after : Machine

/-- Which requests may be refused on a machine, and what they may make of it. -/
abbrev Mishap := Request → Machine → Machine → Prop

namespace Mishap

/-- Any request may be refused and leave anything behind. -/
def anything : Mishap := fun _ _ _ => True

/-- Any request may be refused without having done anything. -/
def refusals : Mishap := fun _ before after => after = before

end Mishap

namespace World

/-- How a program may run: each request is answered by the world or, as far as `mishap` has it,
refused. -/
inductive Runs {α : Type} (mishap : Mishap) : World → Program α → List Exchange → α → World → Prop
  | done : Runs mishap world (.done value) [] value world
  | answered {next : request.Answer → Program α} :
      Runs mishap (world.answer request).2 (next (world.answer request).1) trace value after →
      Runs mishap world (.ask request next)
        (⟨request, (world.answer request).1, world.machine, (world.answer request).2.machine⟩ ::
          trace) value after
  | refused {next : request.Answer → Program α} {answer : request.Answer} :
      request.refusal? cause = some answer → mishap request world.machine left →
      Runs mishap { world with machine := left } (next answer) trace value after →
      Runs mishap world (.ask request next)
        (⟨request, answer, world.machine, left⟩ :: trace) value after

/-- How a task may run. -/
def Ends (mishap : Mishap) (world : World) (task : Task α) (trace : List Exchange)
    (result : Except Failure α) (after : World) : Prop :=
  Runs mishap world task.run trace result after

/-- What is asked and answered when nothing goes wrong. -/
def record (world : World) : Program α → List Exchange
  | .done _ => []
  | .ask request next =>
    ⟨request, (world.answer request).1, world.machine, (world.answer request).2.machine⟩ ::
      (world.answer request).2.record (next (world.answer request).1)

end World

end FragmentBuild
