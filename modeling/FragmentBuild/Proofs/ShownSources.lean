import FragmentBuild.Proofs.BuildOutcome
import FragmentBuild.Proofs.UnitIsolation

/-! What is shown of a unit against what is built from it. The one command makes the texts of a
collector that is never finished, the other writes them to a disk for a tool. Main statement: the
tool reads what is shown. -/
namespace FragmentBuild

/-- What is shown of fragments and dependencies: the source and, if it is asked for and there is
one, the manifest. -/
def shownText (toolchain : Toolchain) (withManifest : Bool) (fragments : List String)
    (dependencies : List Dependency) : String :=
  sourceText fragments ++
    if withManifest && !dependencies.isEmpty then
      "\n" ++ (Manifest.ofDependencies dependencies toolchain.edition).render
    else ""

def UnitDescription.shown (toolchain : Toolchain) (withManifest : Bool)
    (unit : UnitDescription) : String :=
  shownText toolchain withManifest (unit.calls.filterMap Collector.Call.fragment?)
    (unit.calls.filterMap Collector.Call.dependency?)

@[simp] theorem LinkPlan.isEmpty_register (plan : LinkPlan) (path : Path) :
    (plan.register path).isEmpty = false := by
  rw [register]
  split
  · next known =>
    rw [isEmpty, List.isEmpty_eq_false_iff]
    rintro none
    simp [none] at known
  · simp [isEmpty]

namespace World

variable {world after : World} {settings : Settings} {path : Path}

/-- What a command that builds a single unit tells of what came of it. -/
def Tells (built after : World) (result : Except Problem Unit) :
    Except Failure (Option Path) → Prop
  | .error failure => result = .error (.failure failure)
  | .ok archive => after.printed = built.printed ++ Run.announced archive

/-- The tool that is called for a unit reads all that was described, and nothing else. -/
theorem Comes.reads {run next : Run} {unit : UnitDescription}
    {result : Except Failure (Option Path)} (comes : Comes world run unit result next after)
    (settings : run.compilation.builder.settings = run.compilation.settings)
    (shows : unit.dependencies ≠ [] →
      world.machine.ShowsFilesHere run.compilation.settings.toolchain)
    (reached : after.calls ≠ world.calls) :
    ∃ invocation machine, after.calls = world.calls ++ [(invocation, machine)] ∧
      ReadsUnit run.compilation.settings.toolchain
        (unit.calls.filterMap Collector.Call.fragment?)
        (unit.calls.filterMap Collector.Call.dependency?) invocation machine := by
  cases comes with
  | again taken => exact absurd rfl reached
  | new free finished =>
    rename_i events
    have held := collector?_singleton run.compilation unit.name
      ((run.compilation.collectorOf unit.name).recorded unit.calls)
    have tracks : Run.Tracks ⟨run.compilation, [(unit.name, _)]⟩ unit.name
        ⟨false, some unit.calls⟩ := ⟨free, by
      rw [held, Option.map_some]
      exact congrArg some (Collector.foldl_after rfl unit.calls).symm⟩
    have ran := run_perform_finish ({ world with events } : World) held
    rw [finished] at ran
    have shown (calls : List Collector.Call) (held : some unit.calls = some calls)
        (some : calls.filterMap Collector.Call.dependency? ≠ []) :
        ({ world with events } : World).machine.ShowsFilesHere
          run.compilation.settings.toolchain := by
      cases held
      rw [unit.dependencies_calls] at some
      exact shows some
    obtain ⟨calls, invocation, machine, gathered, called, reads⟩ :=
      finish_reads tracks settings shown ran reached
    cases gathered
    exact ⟨invocation, machine, called, reads⟩

end World

/-- All that a tool is given to read: the source and, if it is wanted and the package tool is
called, a line break and the manifest. -/
def Invocation.texts? (invocation : Invocation) (machine : Machine) (withManifest : Bool) :
    Option String := do
  let source ← invocation.sourceText? machine
  if withManifest && invocation.isPackageCall then
    return source ++ "\n" ++ (← invocation.manifestText? machine)
  else return source

end FragmentBuild
