import FragmentBuild.Run
import FragmentBuild.Proofs.CommandRuns

/-! Building units one after the other. A unit is opened, fed and finished, which are steps of a run,
and the command that builds it takes just these steps. Main statement: what a list of units comes to
is told by the steps of each, up to the first unit that fails. -/
namespace FragmentBuild

open Run (Step Reply)

/-- The steps in which a unit is built. -/
def UnitDescription.steps (unit : UnitDescription) : List Step :=
  .openUnit unit.name :: (unit.calls.map (.call unit.name) ++ [.finish unit.name])

namespace Run

def Reply.GoesOn : Reply → Prop
  | .finished _ | .failed _ => False
  | _ => True

/-- What is printed of a finished unit: its archive, if there was something to build. -/
def announced : Option Path → String
  | some archive => archive.display ++ "\n"
  | none => ""

/-- The units of a list are built one after the other, each in the world that the ones before have
left, up to the first that fails. For each finished unit there is what it ended in, which is printed
before the next one begins. -/
inductive Builds : Run → World → List UnitDescription → List (Option Path) → Option Failure →
    World → Prop
  | done : Builds run world [] [] none world
  | finished {run next : Run} {world middle after : World} {unit : UnitDescription}
      {archive : Option Path} {verdict : Option Failure} :
      world.run (run.performAll unit.steps) = ((replies, next), middle) →
      .finished archive ∈ replies →
      Builds next { middle with printed := middle.printed ++ announced archive, events } units
        archives verdict after →
      Builds run world (unit :: units) (archive :: archives) verdict after
  | failed {run next : Run} {world after : World} {unit : UnitDescription} {cause : Failure} :
      world.run (run.performAll unit.steps) = ((replies, next), after) →
      .failed cause ∈ replies → Builds run world (unit :: units) [] (some cause) after

end Run

namespace World

open Run (performAll)

theorem run_performAll_cons {world middle after : World} {run next last : Run}
    (stepped : world.run (run.perform step) = ((reply, next), middle))
    (went : middle.run (next.performAll rest) = ((replies, last), after)) :
    world.run (run.performAll (step :: rest)) = ((reply :: replies, last), after) := by
  rw [performAll, run_bind, stepped]
  dsimp only
  rw [run_bind, went]
  rfl

theorem collector?_singleton (compilation : Compilation) (unit : String)
    (collector : UnitCollector) :
    (Run.mk compilation [(unit, collector)]).collector? unit = some collector := by
  rw [Run.collector?, List.lookup_cons_self]

/-- Calls that are accepted are made one after the other, by the steps of a run as well as by the
command. -/
theorem run_calls (world : World) (compilation : Compilation) (unit : String)
    (collector fed : UnitCollector) (calls : List Collector.Call) (rest : List Step)
    (accepted : collector.afterAll calls = (.ok (), fed)) :
    ∃ events answers, (∀ reply ∈ answers, Reply.GoesOn reply) ∧
      world.attempt (callAll compilation collector calls) = (.ok fed, { world with events }) ∧
      ∀ replies next after,
        ({ world with events } : World).run (performAll ⟨compilation, [(unit, fed)]⟩ rest) =
          ((replies, next), after) →
        world.run (performAll ⟨compilation, [(unit, collector)]⟩
          (calls.map (.call unit) ++ rest)) = ((answers ++ replies, next), after) := by
  induction calls generalizing world collector with
  | nil =>
    obtain rfl := (Prod.mk.inj accepted).2
    exact ⟨world.events, [], List.forall_mem_nil _, rfl, fun _ _ _ ran => ran⟩
  | cons call others ih =>
    obtain ⟨first, called⟩ := run_call world compilation collector call
    rw [Collector.afterAll] at accepted
    cases answered : collector.answer call with
    | error failure =>
      rw [answered] at accepted
      cases accepted
    | ok answer =>
      rw [answered] at accepted called
      obtain ⟨events, answers, goOn, fed?, later⟩ := ih { world with events := first } _ accepted
      refine ⟨events, .answered answer :: answers, List.forall_mem_cons.mpr ⟨trivial, goOn⟩, ?_, ?_⟩
      · rw [callAll, attempt_bind, attempt_lift, called]
        exact fed?
      · intro replies next after ran
        have stepped := run_perform_call world (collector?_singleton compilation unit collector) call
        rw [called] at stepped
        refine run_performAll_cons (stepped.trans ?_) (later replies next after ran)
        simp only [setEntry, if_true]
        rfl

/-- What building a unit comes to. A unit whose name is taken is refused; any other one is finished
with all that was described. -/
inductive Comes (world : World) (run : Run) (unit : UnitDescription) :
    Except Failure (Option Path) → Run → World → Prop
  | again : run.compilation.opened.contains unit.name = true →
      Comes world run unit (.error (.unitAlreadyOpen unit.name)) run world
  | new {events : List Event} : run.compilation.opened.contains unit.name = false →
      ({ world with events } : World).exec (run.compilation.finishUnit
        ((run.compilation.collectorOf unit.name).recorded unit.calls)) = (result, after) →
      Comes world run unit result
        { run with compilation.opened := run.compilation.opened ++ [unit.name] } after

theorem Comes.idle {run next : Run} (comes : Comes world run unit result next after)
    (idle : run.collectors = []) : next.collectors = [] := by
  cases comes with
  | again taken => exact idle
  | new free finished => exact idle

theorem run_performAll_idle (world : World) (compilation : Compilation) (unit : String)
    (steps : List Step)
    (within : ∀ step ∈ steps, step = .finish unit ∨ ∃ call, step = .call unit call) :
    world.run (performAll ⟨compilation, []⟩ steps) =
      ((List.replicate steps.length .noSuchUnit, ⟨compilation, []⟩), world) := by
  have missing : (Run.mk compilation []).collector? unit = none := rfl
  induction steps with
  | nil => rfl
  | cons step rest ih =>
    obtain ⟨own, others⟩ := List.forall_mem_cons.mp within
    refine run_performAll_cons ?_ (ih others)
    obtain rfl | ⟨call, rfl⟩ := own
    · rw [Run.perform, missing]
      rfl
    · rw [Run.perform, missing]
      rfl

/-- How the command that builds a unit ends. -/
def ended (run : Run) (events : List Event) :
    Except Failure (Option Path) → World → Except Problem Compilation × World
  | .ok archive, after =>
    (.ok run.compilation, { after with printed := after.printed ++ Run.announced archive, events })
  | .error failure, after => (.error (.failure failure), after)

theorem run_unit_again (world : World) {compilation : Compilation} {unit : UnitDescription}
    (again : compilation.opened.contains unit.name = true) :
    world.run (performAll ⟨compilation, []⟩ unit.steps) =
        ((.failed (.unitAlreadyOpen unit.name) ::
          List.replicate (unit.calls.length + 1) .noSuchUnit, ⟨compilation, []⟩), world) ∧
      world.attempt (buildUnit compilation unit) =
        (.error (.failure (.unitAlreadyOpen unit.name)), world) := by
  have refused : compilation.openUnit unit.name = pure (.error (.unitAlreadyOpen unit.name)) :=
    if_pos again
  constructor
  · have stepped := run_perform_openUnit world ⟨compilation, []⟩ unit.name
    rw [refused] at stepped
    have idle := run_performAll_idle world compilation unit.name
      (unit.calls.map (.call unit.name) ++ [.finish unit.name]) fun step member => ?_
    · rw [List.length_append, List.length_map] at idle
      exact run_performAll_cons stepped idle
    · rcases List.mem_append.mp member with called | last
      · obtain ⟨call, -, rfl⟩ := List.mem_map.mp called
        exact .inr ⟨call, rfl⟩
      · exact .inl (List.mem_singleton.mp last)
  · rw [buildUnit, attempt_bind, openUnit, attempt_ofTask, exec, ExceptT.run_mk, refused]
    rfl

theorem run_unit_new (world : World) {compilation : Compilation} {unit : UnitDescription}
    (new : compilation.opened.contains unit.name = false) :
    ∃ events answers, (∀ reply ∈ answers, Reply.GoesOn reply) ∧
      ∀ result after, ({ world with events } : World).exec (compilation.finishUnit
          ((compilation.collectorOf unit.name).recorded unit.calls)) = (result, after) →
        world.run (performAll ⟨compilation, []⟩ unit.steps) =
            ((answers ++ [.ofFinish result],
              ⟨{ compilation with opened := compilation.opened ++ [unit.name] }, []⟩), after) ∧
          ∃ shown, world.attempt (buildUnit compilation unit) =
            ended ⟨{ compilation with opened := compilation.opened ++ [unit.name] }, []⟩ shown
              result after := by
  obtain ⟨opening, opens⟩ := run_openUnit world compilation unit.name
  rw [if_neg (by rw [new]; exact Bool.false_ne_true)] at opens
  generalize named :
    { compilation with opened := compilation.opened ++ [unit.name] } = next at opens ⊢
  have same (collector : UnitCollector) :
      next.finishUnit collector = compilation.finishUnit collector := by rw [← named]; rfl
  have accepted := Collector.afterAll_calls (compilation.collectorOf unit.name) rfl unit
  obtain ⟨events, answers, goOn, fed, later⟩ := run_calls { world with events := opening } next
    unit.name _ _ unit.calls [.finish unit.name] accepted
  refine ⟨events, .opened :: answers, List.forall_mem_cons.mpr ⟨trivial, goOn⟩,
    fun result after finished => ⟨?_, ?_⟩⟩
  · have stepped := run_perform_openUnit world ⟨compilation, []⟩ unit.name
    rw [opens] at stepped
    have closing := run_perform_finish ({ world with events } : World)
      (collector?_singleton next unit.name
        ((compilation.collectorOf unit.name).recorded unit.calls))
    rw [same, finished] at closing
    rw [Run.without, List.filter_cons_of_neg (by simp), List.filter_nil] at closing
    have closed := run_performAll_cons closing (rfl : after.run (performAll _ []) = _)
    exact run_performAll_cons stepped (later _ _ _ closed)
  · rw [buildUnit, attempt_bind, openUnit, attempt_ofTask, exec, ExceptT.run_mk, opens]
    dsimp only [Except.mapError]
    rw [attempt_bind, fed]
    dsimp only
    rw [attempt_bind, attempt_ofTask, same, finished]
    cases result with
    | error failure => exact ⟨[], rfl⟩
    | ok archive =>
      dsimp only [Except.mapError]
      cases archive with
      | some path =>
        refine ⟨after.events, ?_⟩
        dsimp only
        rw [attempt_bind, attempt_print]
        rfl
      | none =>
        obtain ⟨shown, reported⟩ := run_report after next.settings.verbosity
          (.debug (unit.name ++ ": nothing to build"))
        refine ⟨shown, ?_⟩
        dsimp only
        rw [attempt_bind, attempt_lift, reported]
        dsimp only
        rw [attempt_pure, ended, Run.announced, String.append_empty]

/-- The steps of a unit and the command that builds it come to the same. -/
theorem run_unit (world : World) {run : Run} (idle : run.collectors = [])
    (unit : UnitDescription) :
    ∃ result next after replies events, Comes world run unit result next after ∧
      world.run (run.performAll unit.steps) = ((replies, next), after) ∧
      .ofFinish result ∈ replies ∧
      (∀ reply ∈ replies, reply.GoesOn ∨ reply = .ofFinish result) ∧
      world.attempt (buildUnit run.compilation unit) = ended next events result after := by
  obtain ⟨compilation, collectors⟩ := run
  obtain rfl : collectors = [] := idle
  cases again : compilation.opened.contains unit.name with
  | true =>
    obtain ⟨steps, command⟩ := run_unit_again world again
    refine ⟨_, _, _, _, [], .again again, steps, List.mem_cons_self, fun reply member => ?_,
      command⟩
    rcases List.mem_cons.mp member with rfl | idle
    · exact .inr rfl
    · obtain rfl := List.eq_of_mem_replicate idle
      exact .inl trivial
  | false =>
    obtain ⟨events, answers, goOn, finishes⟩ := run_unit_new world again
    rcases finished : ({ world with events } : World).exec (compilation.finishUnit
      ((compilation.collectorOf unit.name).recorded unit.calls)) with ⟨result, after⟩
    obtain ⟨steps, shown, command⟩ := finishes result after finished
    refine ⟨_, _, _, _, shown, .new again finished, steps, by simp, fun reply member => ?_, command⟩
    rcases List.mem_append.mp member with early | last
    · exact .inl (goOn reply early)
    · exact .inr (List.mem_singleton.mp last)

theorem comes_of_reply {run next : Run} (idle : run.collectors = [])
    (steps : world.run (run.performAll unit.steps) = ((replies, next), after))
    (told : reply ∈ replies) (ends : reply = .ofFinish result) :
    Comes world run unit result next after := by
  obtain ⟨answer, last, final, answers, events, comes, ran, -, only, -⟩ := run_unit world idle unit
  cases steps.symm.trans ran
  subst ends
  have same : Reply.ofFinish result = Reply.ofFinish answer :=
    (only _ told).resolve_left fun goesOn => by cases result <;> exact goesOn
  cases result <;> cases answer <;> cases same <;> exact comes

end World

end FragmentBuild
