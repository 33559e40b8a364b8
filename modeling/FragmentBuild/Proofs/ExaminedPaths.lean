import FragmentBuild.Proofs.WorkEndings

/-! Which files a build looks at, and what it can fail for. Main statement: a package build tests
for, moves and reports as missing no file but the archive that its tool was told to leave. -/
namespace FragmentBuild

/-- The file that a request tests for, reads or takes away. -/
def Request.examined? : Request → Option Path
  | .isPresent path | .isFile path | .read path | .removeFile path => some path
  | .rename source _ | .copy source _ => some source
  | _ => none

def Failure.IsAccess (failure : Failure) : Prop :=
  ∃ path cause, failure = .inaccessible path cause

namespace Program

/-- Whatever the answers, the program asks only for what is allowed and gives a good value. -/
def Within (allowed : Request → Prop) (good : α → Prop) : Program α → Prop
  | .done value => good value
  | .ask request next => allowed request ∧ ∀ answer, (next answer).Within allowed good

theorem Within.bind {program : Program α} {next : α → Program β}
    (first : program.Within allowed good)
    (rest : ∀ value, good value → (next value).Within allowed fine) :
    (program >>= next).Within allowed fine := by
  induction program with
  | done value => exact rest value first
  | ask request resume ih => exact ⟨first.1, fun answer => ih answer (first.2 answer)⟩

theorem Within.mono {program : Program α} (within : program.Within allowed good)
    (wider : ∀ request, allowed request → permitted request)
    (better : ∀ value, good value → fine value) :
    program.Within permitted fine := by
  induction program with
  | done value => exact better value within
  | ask request next ih =>
    exact ⟨wider request within.1, fun answer => ih answer (within.2 answer)⟩

theorem Asks.within {program : Program α} (asks : program.Asks allowed)
    (all : ∀ value, good value) : program.Within allowed good := by
  induction program with
  | done value => exact all value
  | ask request next ih => exact ⟨asks.1, fun answer => ih answer (asks.2 answer)⟩

end Program

namespace World

variable {mishap : Mishap} {world after : World} {trace : List Exchange}

theorem Runs.within {program : Program α} (within : program.Within allowed good)
    (ran : Runs mishap world program trace value after) :
    (∀ exchange ∈ trace, allowed exchange.request) ∧ good value := by
  induction ran with
  | done => exact ⟨nofun, within⟩
  | answered ran ih | refused refusal harm ran ih =>
    obtain ⟨later, fine⟩ := ih (within.2 _)
    exact ⟨List.forall_mem_cons.mpr ⟨within.1, later⟩, fine⟩

end World

namespace Task

def Within (allowed : Request → Prop) (failing : Failure → Prop) (task : Task α) : Prop :=
  Program.Within allowed (fun result => ∀ failure, result = .error failure → failing failure)
    task.run

variable {task : Task α} {allowed : Request → Prop} {failing : Failure → Prop}

theorem Within.pure (value : α) : (Pure.pure value : Task α).Within allowed failing :=
  fun _ => nofun

theorem Within.fail {failure : Failure} (known : failing failure) :
    (Task.fail failure : Task α).Within allowed failing := by
  intro other same
  cases same
  exact known

theorem Within.bind {next : α → Task β} (first : task.Within allowed failing)
    (rest : ∀ value, (next value).Within allowed failing) :
    (task >>= next).Within allowed failing := by
  refine Program.Within.bind first fun result known => ?_
  cases result with
  | error failure => exact fun other same => by cases same; exact known failure rfl
  | ok value => exact rest value

theorem Within.mono (within : task.Within allowed failing)
    (wider : ∀ request, allowed request → permitted request)
    (known : ∀ failure, failing failure → other failure) : task.Within permitted other :=
  Program.Within.mono within wider fun _ fails failure same => known failure (fails failure same)

theorem Within.lift {program : Program α} (asks : program.Asks allowed) :
    Task.Within allowed failing (ExceptT.lift program) := by
  refine Program.Within.bind (asks.within fun _ => trivial) fun value _ => ?_
  exact fun _ same => by cases same

theorem Within.orInaccessible {program : Program (Except SystemError α)} (path : Path)
    (asks : program.Asks allowed) :
    (Task.orInaccessible path program).Within allowed Failure.IsAccess := by
  refine Program.Within.bind (asks.within fun _ => trivial) fun result _ => ?_
  cases result with
  | ok value => exact fun _ => nofun
  | error cause => exact fun failure same => by cases same; exact ⟨path, cause, rfl⟩

theorem Within.onFailure (within : task.Within allowed failing) (discarded : List Request)
    (permitted : ∀ request ∈ discarded, allowed request) :
    (task.onFailure discarded).Within allowed failing := by
  refine Program.Within.bind within fun result known => ?_
  cases result with
  | ok value => exact fun _ => nofun
  | error failure =>
    refine Program.Within.bind ((asks_requestAll discarded permitted).within fun _ => trivial) ?_
    exact fun _ _ other same => by cases same; exact known failure rfl

end Task

namespace Scratch

end Scratch

namespace WorkDirectory

end WorkDirectory

namespace Builder

end Builder

end FragmentBuild
