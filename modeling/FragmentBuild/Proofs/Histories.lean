import FragmentBuild.Run
import FragmentBuild.Proofs.Collectors
import FragmentBuild.Proofs.Running

/-! Histories of a run. Between two steps anything may happen to the machine, so each step is
taken in a world of its own. What the steps of one unit have made of it is followed by a view
that knows nothing of other units, of the disk or of the tool. -/
namespace FragmentBuild

namespace Run

def Step.unit : Step → String
  | .openUnit unit | .call unit _ | .drop unit | .finish unit => unit

abbrev Turn := World × Step

/-- Takes the steps one after the other and gives each with its reply. -/
def along (run : Run) : List Turn → List (Step × Reply) × Run
  | [] => ([], run)
  | (world, step) :: rest =>
    let taken := (world.run (run.perform step)).1
    ((step, taken.1) :: (taken.2.along rest).1, (taken.2.along rest).2)

end Run

namespace Run

def Reply.ofAnswer : Except Failure Collector.Answer → Reply
  | .ok answer => .answered answer
  | .error failure => .failed failure

def Reply.ofFinish : Except Failure (Option Path) → Reply
  | .ok archive => .finished archive
  | .error failure => .failed failure

end Run

namespace World

theorem run_reportAll (world : World) (verbosity : Verbosity) (reported : List Event) :
    ∃ events, world.run (Program.reportAll verbosity reported) = ((), { world with events }) := by
  induction reported generalizing world with
  | nil => exact ⟨world.events, rfl⟩
  | cons event rest ih =>
    obtain ⟨first, begun⟩ := run_report world verbosity event
    obtain ⟨events, ended⟩ := ih { world with events := first }
    exact ⟨events, by rw [Program.reportAll, run_bind, begun]; exact ended⟩

theorem run_openUnit (world : World) (compilation : Compilation) (unit : String) :
    ∃ events, world.run (compilation.openUnit unit) =
      (if compilation.opened.contains unit then .error (.unitAlreadyOpen unit)
        else .ok (compilation.collectorOf unit,
          { compilation with opened := compilation.opened ++ [unit] }),
        { world with events }) := by
  rw [Compilation.openUnit]
  split
  · exact ⟨world.events, rfl⟩
  · obtain ⟨events, reported⟩ := run_report world compilation.settings.verbosity
      (.topic .registry ("opened unit " ++ unit))
    exact ⟨events, by rw [run_bind, reported]; rfl⟩

theorem run_call (world : World) (compilation : Compilation) (collector : UnitCollector)
    (call : Collector.Call) :
    ∃ events, world.run (compilation.call collector call) =
      ((collector.answer call, collector.after call), { world with events }) := by
  rw [Compilation.call]
  split
  · obtain ⟨events, reported⟩ := run_reportAll world compilation.settings.verbosity
      (collector.events call)
    exact ⟨events, by rw [run_bind, reported]; rfl⟩
  · exact ⟨world.events, rfl⟩

theorem run_perform_openUnit (world : World) (run : Run) (unit : String) :
    world.run (run.perform (.openUnit unit)) =
      match world.run (run.compilation.openUnit unit) with
      | (.ok (collector, compilation), after) =>
        ((.opened, ⟨compilation, setEntry unit collector run.collectors⟩), after)
      | (.error failure, after) => ((.failed failure, run), after) := by
  rw [Run.perform, run_bind]
  rcases world.run (run.compilation.openUnit unit) with ⟨_ | ⟨collector, compilation⟩, after⟩ <;>
    rfl

theorem run_perform_call (world : World) {run : Run} {unit : String} {collector : UnitCollector}
    (held : run.collector? unit = some collector) (call : Collector.Call) :
    world.run (run.perform (.call unit call)) =
      match world.run (run.compilation.call collector call) with
      | ((answer, collector), after) =>
        ((.ofAnswer answer, { run with collectors := setEntry unit collector run.collectors }),
          after) := by
  rw [Run.perform, held]
  dsimp only
  rw [run_bind]
  rcases world.run (run.compilation.call collector call) with ⟨⟨_ | answer, collector⟩, after⟩ <;>
    rfl

theorem run_perform_finish (world : World) {run : Run} {unit : String} {collector : UnitCollector}
    (held : run.collector? unit = some collector) :
    world.run (run.perform (.finish unit)) =
      match world.exec (run.compilation.finishUnit collector) with
      | (result, after) => ((.ofFinish result, run.without unit), after) := by
  rw [Run.perform, held]
  dsimp only
  rw [run_bind, exec]
  rcases world.run (run.compilation.finishUnit collector).run with ⟨_ | archive, after⟩ <;> rfl

end World

namespace Run

variable (world : World) (run : Run)

theorem perform_openUnit (unit : String) :
    (world.run (run.perform (.openUnit unit))).1 =
      if run.compilation.opened.contains unit then (.failed (.unitAlreadyOpen unit), run)
      else (.opened,
        ⟨{ run.compilation with opened := run.compilation.opened ++ [unit] },
          setEntry unit (run.compilation.collectorOf unit) run.collectors⟩) := by
  obtain ⟨events, opened⟩ := world.run_openUnit run.compilation unit
  rw [World.run_perform_openUnit, opened]
  by_cases taken : run.compilation.opened.contains unit = true
  · simp only [if_pos taken]
  · simp only [if_neg taken]

theorem perform_call (unit : String) (call : Collector.Call) :
    (world.run (run.perform (.call unit call))).1 =
      match run.collector? unit with
      | none => (.noSuchUnit, run)
      | some collector =>
        (.ofAnswer (collector.answer call),
          { run with collectors := setEntry unit (collector.after call) run.collectors }) := by
  cases held : run.collector? unit with
  | none =>
    rw [perform, held]
    rfl
  | some collector =>
    obtain ⟨events, called⟩ := world.run_call run.compilation collector call
    rw [World.run_perform_call world held, called]

theorem perform_drop (unit : String) :
    (world.run (run.perform (.drop unit))).1 =
      (.dropped (run.collector? unit).isSome, run.without unit) := rfl

theorem perform_finish (unit : String) :
    (world.run (run.perform (.finish unit))).1.2 =
      if (run.collector? unit).isSome then run.without unit else run := by
  cases held : run.collector? unit with
  | none =>
    rw [perform, held]
    rfl
  | some collector =>
    rw [World.run_perform_finish world held]
    rfl

/-- What the steps of a unit have made of it. -/
structure UnitView where
  opened : Bool := false
  /-- The calls since the unit was opened, for as long as it can be finished. -/
  held : Option (List Collector.Call) := none

namespace UnitView

def after (view : UnitView) : Step → UnitView
  | .openUnit _ => if view.opened then view else { opened := true, held := some [] }
  | .call _ call => { view with held := view.held.map (· ++ [call]) }
  | .drop _ | .finish _ => { view with held := none }

def plain (unit : String) (policy : Policy) : Collector Unit where
  unit := unit
  defaultPolicy := policy
  schedule := fun _ _ _ => ()

/-- The reply to a step, unless it finishes the unit and depends on the tool. -/
def reply? (unit : String) (policy : Policy) (view : UnitView) : Step → Option Reply
  | .openUnit _ => some (if view.opened then .failed (.unitAlreadyOpen unit) else .opened)
  | .call _ call =>
    some (match view.held with
      | none => .noSuchUnit
      | some calls =>
        .ofAnswer ((calls.foldl Collector.after (plain unit policy)).answer call))
  | .drop _ => some (.dropped view.held.isSome)
  | .finish _ => none

end UnitView

end Run

namespace Run

/-- What a view says of a unit is true of a run. -/
structure Tracks (run : Run) (unit : String) (view : UnitView) : Prop where
  opened : run.compilation.opened.contains unit = view.opened
  held : run.collector? unit =
    view.held.map fun calls =>
      calls.foldl Collector.after (run.compilation.collectorOf unit)

/-- What stays the same from the start of a run to its end. -/
structure SameSettings (before after : Run) : Prop where
  settings : after.compilation.settings = before.compilation.settings
  policy : after.compilation.defaultPolicy = before.compilation.defaultPolicy
  builder : after.compilation.builder = before.compilation.builder

theorem SameSettings.refl (run : Run) : SameSettings run run := ⟨rfl, rfl, rfl⟩

theorem SameSettings.trans (first : SameSettings before middle)
    (second : SameSettings middle after) : SameSettings before after :=
  ⟨second.settings.trans first.settings, second.policy.trans first.policy,
    second.builder.trans first.builder⟩

theorem collector?_setEntry (compilation : Compilation) (collectors : List (String × UnitCollector))
    (unit other : String) (collector : UnitCollector) :
    (Run.mk compilation (setEntry unit collector collectors)).collector? other =
      if other = unit then some collector else (Run.mk compilation collectors).collector? other :=
  lookup_setEntry unit other collector collectors

theorem collector?_without (run : Run) (unit other : String) :
    (run.without unit).collector? other = if other = unit then none else run.collector? other := by
  rw [collector?, without, lookup_filter (fun key => key != unit)]
  by_cases same : other = unit <;> simp [same, collector?]

theorem perform_sameSettings (world : World) (run : Run) (step : Step) :
    SameSettings run (world.run (run.perform step)).1.2 := by
  cases step with
  | openUnit unit => rw [perform_openUnit]; split <;> exact ⟨rfl, rfl, rfl⟩
  | call unit call => rw [perform_call]; split <;> exact ⟨rfl, rfl, rfl⟩
  | drop unit => exact ⟨rfl, rfl, rfl⟩
  | finish unit => rw [perform_finish]; split <;> exact ⟨rfl, rfl, rfl⟩

theorem Tracks.other (tracks : Tracks run unit view) (world : World) (step : Step)
    (apart : unit ≠ step.unit) : Tracks (world.run (run.perform step)).1.2 unit view := by
  cases step with
  | openUnit other =>
    have apart : unit ≠ other := apart
    rw [perform_openUnit]
    split
    · exact tracks
    · refine ⟨?_, ?_⟩
      · rw [← tracks.opened, Bool.eq_iff_iff]
        simp [apart]
      · rw [collector?_setEntry, if_neg apart]
        exact tracks.held
  | call other call =>
    have apart : unit ≠ other := apart
    rw [perform_call]
    split
    · exact tracks
    · refine ⟨tracks.opened, ?_⟩
      rw [collector?_setEntry, if_neg apart]
      exact tracks.held
  | drop other =>
    have apart : unit ≠ other := apart
    refine ⟨tracks.opened, ?_⟩
    rw [perform_drop, collector?_without, if_neg apart]
    exact tracks.held
  | finish other =>
    have apart : unit ≠ other := apart
    rw [perform_finish]
    split
    · refine ⟨tracks.opened, ?_⟩
      rw [collector?_without, if_neg apart]
      exact tracks.held
    · exact tracks

theorem alike_plain (compilation : Compilation) (unit : String) :
    Collector.Alike (compilation.collectorOf unit)
      (UnitView.plain unit compilation.defaultPolicy) := ⟨rfl, rfl, rfl⟩

/-- A step of a unit does to it what its view says, and is answered as its view says. -/
theorem Tracks.own (tracks : Tracks run unit view) (world : World) (step : Step)
    (named : step.unit = unit) :
    Tracks (world.run (run.perform step)).1.2 unit (view.after step) ∧
      ∀ reply, view.reply? unit run.compilation.defaultPolicy step = some reply →
        (world.run (run.perform step)).1.1 = reply := by
  obtain ⟨opened, held⟩ := tracks
  cases step with
  | openUnit other =>
    obtain rfl : other = unit := named
    rw [perform_openUnit, opened, UnitView.after, UnitView.reply?]
    cases was : view.opened with
    | true => exact ⟨⟨opened, held⟩, fun _ same => by cases same; rfl⟩
    | false =>
      refine ⟨⟨?_, ?_⟩, fun _ same => by cases same; rfl⟩
      · simp
      · simp only [Bool.false_eq_true, if_false]
        exact (collector?_setEntry _ _ other other _).trans (if_pos rfl)
  | call other call =>
    obtain rfl : other = unit := named
    rw [perform_call, UnitView.after, UnitView.reply?]
    cases was : view.held with
    | none =>
      rw [was] at held
      rw [held]
      exact ⟨⟨opened, held⟩, fun _ same => by cases same; rfl⟩
    | some calls =>
      rw [was] at held
      rw [held]
      refine ⟨⟨opened, ?_⟩, fun _ same => ?_⟩
      · dsimp only
        refine (collector?_setEntry _ _ other other _).trans ((if_pos rfl).trans ?_)
        simp only [Option.map_some, List.foldl_append]
        rfl
      · cases same
        have alike := (alike_plain run.compilation other).foldl calls
        exact congrArg Reply.ofAnswer (alike.answer call)
  | drop other =>
    obtain rfl : other = unit := named
    rw [perform_drop, UnitView.reply?]
    refine ⟨⟨opened, ?_⟩, fun _ same => ?_⟩
    · exact (collector?_without run other other).trans (if_pos rfl)
    · cases same
      rw [held]
      cases view.held <;> rfl
  | finish other =>
    obtain rfl : other = unit := named
    refine ⟨?_, nofun⟩
    rw [perform_finish]
    cases was : view.held with
    | none =>
      rw [was] at held
      rw [held]
      exact ⟨opened, held⟩
    | some calls =>
      rw [was] at held
      rw [held]
      exact ⟨opened, (collector?_without run other other).trans (if_pos rfl)⟩

def UnitView.along (unit : String) (view : UnitView) (steps : List Step) : UnitView :=
  (steps.filter fun step => step.unit == unit).foldl UnitView.after view

theorem Tracks.along (turns : List Turn) (tracks : Tracks run unit view) :
    Tracks (run.along turns).2 unit (view.along unit (turns.map (·.2))) := by
  induction turns generalizing run view with
  | nil => exact tracks
  | cons turn rest ih =>
    obtain ⟨world, step⟩ := turn
    by_cases own : step.unit = unit
    · subst own
      have next := ih (tracks.own world step rfl).1
      simpa [UnitView.along, Run.along] using next
    · have next := ih (tracks.other world step (Ne.symm own))
      simpa [UnitView.along, Run.along, own] using next

theorem run_start (world : World) (settings : Settings) (policy : Policy) :
    ∃ scratch, (world.run (start settings policy)).1 =
      { compilation := { settings, defaultPolicy := policy, builder := ⟨settings, scratch⟩ } } := by
  refine ⟨(world.run (Scratch.ofToolchain settings.toolchain)).1, ?_⟩
  rw [start, World.run_bind, Compilation.start, World.run_bind, Builder.ofSettings,
    World.run_bind]
  rfl

theorem along_sameSettings (run : Run) (turns : List Turn) :
    SameSettings run (run.along turns).2 := by
  induction turns generalizing run with
  | nil => exact .refl run
  | cons turn rest ih => exact (perform_sameSettings turn.1 run turn.2).trans (ih _)

theorem tracks_start (world : World) (settings : Settings) (policy : Policy) (unit : String) :
    Tracks (world.run (start settings policy)).1 unit {} := by
  obtain ⟨scratch, begun⟩ := run_start world settings policy
  rw [begun]
  exact ⟨rfl, rfl⟩

/-- The runs that steps of any units lead to, whatever happens in between. -/
def Reachable (settings : Settings) (policy : Policy) (run : Run) : Prop :=
  ∃ (begun : World) (turns : List Turn),
    run = ((begun.run (start settings policy)).1.along turns).2

theorem Reachable.tracks (reachable : Reachable settings policy run) (unit : String) :
    ∃ view, Tracks run unit view := by
  obtain ⟨begun, turns, rfl⟩ := reachable
  exact ⟨_, (tracks_start begun settings policy unit).along turns⟩

theorem Reachable.keepsSettings (reachable : Reachable settings policy run) :
    run.compilation.settings = settings ∧ run.compilation.builder.settings = settings := by
  obtain ⟨begun, turns, rfl⟩ := reachable
  have same := along_sameSettings (begun.run (start settings policy)).1 turns
  obtain ⟨scratch, started⟩ := run_start begun settings policy
  rw [same.settings, same.builder, started]
  exact ⟨rfl, rfl⟩

end Run

end FragmentBuild
