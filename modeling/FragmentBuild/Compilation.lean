import FragmentBuild.Builder

/-! One run over any number of units. Each unit has a collector of its own; the run shares
the settings, the builder and the link plan between them, and opens a unit only once. -/
namespace FragmentBuild

structure Compilation where
  settings : Settings
  defaultPolicy : Policy
  builder : Builder
  opened : List String := []

abbrev UnitCollector := Collector (Task Path)

namespace Compilation

def start (settings : Settings) (defaultPolicy : Policy) : Program Compilation := do
  return { settings, defaultPolicy, builder := ← Builder.ofSettings settings }

/-- Builds a finished unit and hands its archive to the linker. -/
def finishing (settings : Settings) (builder : Builder) : Hook (Task Path) :=
  fun unit state => do
    builder.report (.phase 0 ("Grafting " ++ unit))
    let workRoot ← Task.orInaccessible ⟨"."⟩ (Program.request .workingDirectory)
    builder.report (Job.synthesized state)
    let archive ← builder.build (Job.ofState state settings.toolchain workRoot)
    let _ ← Program.request (.link archive)
    builder.report (.topic .link (unit ++ ": registered " ++ archive.display))
    builder.report (.phase 0 ("Built " ++ archive.display))
    return archive

def collectorOf (compilation : Compilation) (unit : String) : UnitCollector where
  unit := unit
  defaultPolicy := compilation.defaultPolicy
  schedule := fun _ => finishing compilation.settings compilation.builder

def openUnit (compilation : Compilation) (unit : String) :
    Program (Except Failure (UnitCollector × Compilation)) :=
  if compilation.opened.contains unit then return .error (.unitAlreadyOpen unit)
  else do
    Program.report compilation.settings.verbosity (.topic .registry ("opened unit " ++ unit))
    return .ok (compilation.collectorOf unit,
      { compilation with opened := compilation.opened ++ [unit] })

def call (compilation : Compilation) (collector : UnitCollector) (call : Collector.Call) :
    Program (Except Failure Collector.Answer × UnitCollector) := do
  if !collector.refuses call then
    Program.reportAll compilation.settings.verbosity (collector.events call)
  return (collector.answer call, collector.after call)

/-- Finishes a unit, which builds it if anything was collected. -/
def finishUnit (compilation : Compilation) (collector : UnitCollector) :
    Task (Option Path) := do
  ExceptT.lift (Program.report compilation.settings.verbosity collector.closing)
  match collector.finish with
  | none => return none
  | some building => return some (← building)

end Compilation

end FragmentBuild
