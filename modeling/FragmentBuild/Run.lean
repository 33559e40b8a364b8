import FragmentBuild.Compilation
import FragmentBuild.UnitDescription

/-! The steps of a run. Open collectors are kept by unit, and every step but opening a unit
needs its collector. -/
namespace FragmentBuild

structure Run where
  compilation : Compilation
  collectors : List (String × UnitCollector) := []

namespace Run

inductive Step where
  | openUnit (unit : String)
  | call (unit : String) (call : Collector.Call)
  /-- Gives up a collector without finishing its unit. -/
  | drop (unit : String)
  | finish (unit : String)
  deriving Repr

inductive Reply where
  | noSuchUnit
  | failed (failure : Failure)
  | opened
  | answered (answer : Collector.Answer)
  | dropped (held : Bool)
  | finished (archive : Option Path)
  deriving DecidableEq, Repr

def start (settings : Settings) (defaultPolicy : Policy) : Program Run := do
  return { compilation := ← Compilation.start settings defaultPolicy }

def collector? (run : Run) (unit : String) : Option UnitCollector := run.collectors.lookup unit

def without (run : Run) (unit : String) : Run :=
  { run with collectors := run.collectors.filter (·.1 != unit) }

def perform (run : Run) : Step → Program (Reply × Run)
  | .openUnit unit => do
    match ← run.compilation.openUnit unit with
    | .ok (collector, compilation) =>
      return (.opened, ⟨compilation, setEntry unit collector run.collectors⟩)
    | .error failure => return (.failed failure, run)
  | .call unit call =>
    match run.collector? unit with
    | none => return (.noSuchUnit, run)
    | some collector => do
      let (answer, collector) ← run.compilation.call collector call
      let run := { run with collectors := setEntry unit collector run.collectors }
      match answer with
      | .ok answer => return (.answered answer, run)
      | .error failure => return (.failed failure, run)
  | .drop unit => return (.dropped (run.collector? unit).isSome, run.without unit)
  | .finish unit =>
    match run.collector? unit with
    | none => return (.noSuchUnit, run)
    | some collector => do
      match ← (run.compilation.finishUnit collector).run with
      | .ok archive => return (.finished archive, run.without unit)
      | .error failure => return (.failed failure, run.without unit)

def performAll (run : Run) : List Step → Program (List Reply × Run)
  | [] => return ([], run)
  | step :: rest => do
    let (reply, run) ← run.perform step
    let (replies, run) ← run.performAll rest
    return (reply :: replies, run)

end Run

end FragmentBuild
