import FragmentBuild.Mishaps

/-! Programs that run side by side. Each has a world of its own, but all of them have the same
disk: what one makes of it is what the others find. Which of them goes on next is left open. -/
namespace FragmentBuild

/-- A program as far as it has come. -/
structure Process (α : Type) where
  world : World
  rest : Program α

namespace World

/-- What a world makes of a single request: it answers or, as far as `mishap` has it, refuses. -/
def Gives (mishap : Mishap) (world : World) (request : Request) (answer : request.Answer)
    (after : World) : Prop :=
  Runs mishap world (Program.request request) [⟨request, answer, world.machine, after.machine⟩]
    answer after

end World

namespace Process

variable {ι : Type} [DecidableEq ι]

/-- A process after another one has changed the disk. -/
def onDisk (process : Process α) (disk : Disk) : Process α :=
  { process with
    world := { process.world with machine := process.world.machine.withDisk disk } }

/-- One process goes on, and the others find what it has made of the disk. -/
def proceed (processes : ι → Process α) (index : ι) (next : Process α) : ι → Process α :=
  fun other =>
    if other = index then next else (processes other).onDisk next.world.machine.disk

/-- How processes may run side by side: in any order, each of them asks for one thing at a time.
The record says who has asked. -/
inductive Interleaves (mishap : Mishap) (start : ι → Process α) :
    List (ι × Exchange) → (ι → Process α) → Prop
  | start : Interleaves mishap start [] start
  | step {next : request.Answer → Program α} :
      Interleaves mishap start trace processes →
      (processes index).rest = .ask request next →
      (processes index).world.Gives mishap request answer after →
      Interleaves mishap start
        (trace ++ [(index, ⟨request, answer, (processes index).world.machine, after.machine⟩)])
        (proceed processes index ⟨after, next answer⟩)

/-- A process goes on, and nothing is refused. A process that is done has nothing to go on
with. -/
def goOn (processes : ι → Process α) (index : ι) : List (ι × Exchange) × (ι → Process α) :=
  match (processes index).rest with
  | .done _ => ([], processes)
  | .ask request next =>
    let world := (processes index).world
    let answered := world.answer request
    ([(index, ⟨request, answered.1, world.machine, answered.2.machine⟩)],
      proceed processes index ⟨answered.2, next answered.1⟩)

/-- The processes go on in the order of a list. -/
def takeTurns (processes : ι → Process α) : List ι → List (ι × Exchange) × (ι → Process α)
  | [] => ([], processes)
  | index :: turns =>
    let first := goOn processes index
    let rest := takeTurns first.2 turns
    (first.1 ++ rest.1, rest.2)

/-- What one of the processes has asked for. -/
def ownTrace (index : ι) (trace : List (ι × Exchange)) : List Exchange :=
  (trace.filter fun entry => entry.1 = index).map Prod.snd

end Process

end FragmentBuild
