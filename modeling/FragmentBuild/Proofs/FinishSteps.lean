import FragmentBuild.Proofs.Finishing
import FragmentBuild.Proofs.Histories

/-! The step that finishes a unit. What was gathered by the unit's calls is built, and the
reply is what the build ended in. -/
namespace FragmentBuild

namespace Run

def Reply.ofArchive : Except Failure Path → Reply
  | .ok archive => .finished (some archive)
  | .error failure => .failed failure

theorem perform_finish_none (world : World) (run : Run) (unit : String)
    (missing : run.collector? unit = none) :
    world.run (run.perform (.finish unit)) = ((.noSuchUnit, run), world) := by
  rw [perform, missing]
  rfl

theorem perform_finish_empty (world : World) (run : Run) (unit : String)
    (held : run.collector? unit = some collector) (empty : collector.collected = none) :
    ∃ events, world.run (run.perform (.finish unit)) =
      ((.finished none, run.without unit), { world with events }) := by
  obtain ⟨events, ended⟩ := run.compilation.exec_finishUnit world collector
  rw [empty] at ended
  exact ⟨events, by rw [World.run_perform_finish world held, ended]; rfl⟩

theorem perform_finish_collected (world : World) (run : Run) (unit : String)
    (held : run.collector? unit = some collector)
    (collected : collector.collected = some (state, hook)) :
    ∃ events, world.run (run.perform (.finish unit)) =
        ((.ofArchive (({ world with events } : World).exec (hook collector.unit state)).1,
          run.without unit),
          (({ world with events } : World).exec (hook collector.unit state)).2) ∧
      ∀ archive, .link archive ∈ world.requests (run.perform (.finish unit)) →
        .link archive ∈ ({ world with events } : World).asked (hook collector.unit state) := by
  obtain ⟨events, reported⟩ := World.run_report world run.compilation.settings.verbosity
    collector.closing
  have unfolded : run.compilation.finishUnit collector = (do
      ExceptT.lift (Program.report run.compilation.settings.verbosity collector.closing)
      let archive ← hook collector.unit state
      return some archive) := by
    rw [Compilation.finishUnit, Collector.finish, collected]
    rfl
  have silent : ∀ archive, .link archive ∉ world.asked (ExceptT.lift
      (Program.report run.compilation.settings.verbosity collector.closing)) :=
    fun archive member =>
      (Task.Asks.lift (.report _ _ trivial) : Task.Asks Request.IsLocal _).mem_requests
        world member
  refine ⟨events, ?_, fun archive member => ?_⟩
  · rw [perform, held]
    dsimp only
    rw [World.run_bind, ← World.exec, unfolded, World.exec_bind, World.exec_lift, reported]
    dsimp only
    rw [World.exec_bind]
    rcases ({ world with events } : World).exec (hook collector.unit state) with
      ⟨cause | archive, after⟩ <;> rfl
  · rw [perform, held] at member
    dsimp only at member
    rw [World.requests_bind, ← World.asked, ← World.exec, unfolded, World.asked_bind,
      World.exec_lift, reported] at member
    rcases List.mem_append.mp member with asked | late
    · rcases List.mem_append.mp asked with first | inner
      · exact absurd first (silent archive)
      · dsimp only at inner
        rw [World.asked_bind] at inner
        rcases List.mem_append.mp inner with wanted | none
        · exact wanted
        · split at none <;> cases none
    · split at late <;> cases late

/-- What a unit's calls have gathered is what is built. -/
structure Built (run : Run) (world after : World) (calls : List Collector.Call) (state : UnitState)
    (here : Location) (result : Except Failure Path) (built : World) : Prop where
  fragments : state.fragments = calls.filterMap Collector.Call.fragment?
  dependencies : state.dependencies = calls.filterMap Collector.Call.dependency?
  working : world.machine.working = some here
  ran : ∃ events, ({ world with events } : World).exec (run.compilation.builder.build
    (Job.ofState state run.compilation.settings.toolchain (Machine.locationPath here))) =
      (result, built)
  calls : after.calls = built.calls

/-- Finishing a unit calls no tool, or it is the build of what the unit's calls have
gathered. A build that fails is all that happens. -/
theorem perform_finish_cases (world : World) (run : Run) (tracks : Tracks run unit view) :
    (world.run (run.perform (.finish unit))).2.calls = world.calls ∨
      ∃ calls state here result built, view.held = some calls ∧
        Built run world (world.run (run.perform (.finish unit))).2 calls state here
          result built ∧
        ∀ failure, result = .error failure →
          (world.run (run.perform (.finish unit))).1.1 = .failed failure ∧
          (world.run (run.perform (.finish unit))).2 = built ∧
          ∀ archive, .link archive ∉ world.requests (run.perform (.finish unit)) := by
  cases open? : view.held with
  | none =>
    have missing : run.collector? unit = none := by rw [tracks.held, open?]; rfl
    exact .inl (by rw [perform_finish_none world run unit missing])
  | some calls =>
    have held : run.collector? unit =
        some (calls.foldl Collector.after (run.compilation.collectorOf unit)) := by
      rw [tracks.held, open?]; rfl
    have gathered := Collector.gathered_foldl (run.compilation.collectorOf unit) rfl calls
    generalize calls.foldl Collector.after (run.compilation.collectorOf unit) = collector
      at held gathered
    rcases collected : collector.collected with _ | ⟨state, hook⟩
    · obtain ⟨events, ended⟩ := perform_finish_empty world run unit held collected
      exact .inl (by rw [ended])
    · obtain ⟨rfl, fragments, dependencies⟩ := gathered.state state hook collected
      obtain ⟨events, ended, unlinked⟩ :=
        perform_finish_collected world run unit held collected
      have scheduled : (run.compilation.collectorOf unit).schedule
          (run.compilation.collectorOf unit).unit =
            Compilation.finishing run.compilation.settings run.compilation.builder := rfl
      rw [scheduled] at ended unlinked
      rw [ended]
      cases finished : ({ world with events } : World).exec (Compilation.finishing
          run.compilation.settings run.compilation.builder collector.unit state) with
      | mk result after =>
        rcases World.finishing_cases _ _ _ _ finished with
          ⟨-, same⟩ | ⟨here, later, working, built, ran, ends⟩
        · exact .inl same.calls
        refine .inr ⟨calls, state, here, result, built, rfl,
          ⟨fragments, dependencies, working, ⟨later, ran⟩, ?_⟩, fun failure failed => ?_⟩
        · rcases ends with ⟨failure, -, rfl⟩ | ⟨archive, events, -, rfl⟩ <;> rfl
        · rcases ends with ⟨_, rfl, rfl⟩ | ⟨archive, events, rfl, rfl⟩
          · cases failed
            exact ⟨rfl, rfl, fun archive member => Compilation.finishing_unlinked _ _ _ _ _
              archive (congrArg Prod.fst finished) (unlinked archive member)⟩
          · cases failed

end Run

end FragmentBuild
