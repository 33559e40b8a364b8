import FragmentBuild.Proofs.CallCounts
import FragmentBuild.Proofs.UnitIsolation

/-! The steps of a run with mishaps. Only the step that finishes a unit asks for anything that
can be refused, and what it makes of the run and of the link plan is told by its reply. -/
namespace FragmentBuild

namespace Run

theorem asks_openUnit (compilation : Compilation) (unit : String) :
    (compilation.openUnit unit).Asks Request.IsReport := by
  rw [Compilation.openUnit]
  split
  · exact .pure _ _
  · exact .bind (.report _ _ ⟨_, rfl⟩) fun _ => .pure _ _

theorem asks_reportAll (verbosity : Verbosity) (events : List Event) :
    (Program.reportAll verbosity events).Asks Request.IsReport := by
  induction events with
  | nil => exact .pure _ _
  | cons event rest ih => exact .bind (.report _ _ ⟨_, rfl⟩) fun _ => ih

theorem asks_call (compilation : Compilation) (collector : UnitCollector)
    (call : Collector.Call) : (compilation.call collector call).Asks Request.IsReport := by
  rw [Compilation.call]
  split
  · exact .bind (asks_reportAll _ _) fun _ => .pure _ _
  · exact .pure _ _

theorem asks_perform (run : Run) (step : Step) (open? : step.isFinish = false) :
    (run.perform step).Asks Request.IsReport := by
  cases step with
  | openUnit unit =>
    refine .bind (asks_openUnit _ _) fun result => ?_
    cases result <;> exact .pure _ _
  | call unit call =>
    rw [perform]
    cases run.collector? unit with
    | none => exact .pure _ _
    | some collector =>
      refine .bind (asks_call _ _ _) fun result => ?_
      obtain ⟨answer, after⟩ := result
      cases answer <;> exact .pure _ _
  | drop unit => exact .pure _ _
  | finish unit => cases open?

variable {mishap : Mishap} {world after : World} {trace : List Exchange} {run next : Run}

/-- A step that finishes no unit goes as it does without mishaps, calls no tool and leaves the
link plan. -/
theorem runs_perform (open? : step.isFinish = false)
    (ran : World.Runs mishap world (run.perform step) trace (reply, next) after) :
    (reply, next) = (world.run (run.perform step)).1 ∧ callsIn trace = [] ∧
      after.plan = world.plan := by
  have asks := asks_perform run step open?
  obtain ⟨-, same⟩ := ran.steady (asks.mono fun _ => Request.IsReport.steady)
  have quiet := asks.mono fun _ => Request.IsReport.isLocal
  exact ⟨by rw [same], ran.callsIn_eq_nil quiet, (ran.sameRecords quiet).plan⟩

theorem runs_openUnit_again (again : run.compilation.opened.contains unit = true)
    (ran : World.Runs mishap world (run.perform (.openUnit unit)) trace (reply, next) after) :
    trace = [] ∧ (reply, next) = (.failed (.unitAlreadyOpen unit), run) ∧ after = world := by
  have refused : run.perform (.openUnit unit) = pure (.failed (.unitAlreadyOpen unit), run) := by
    rw [perform, Compilation.openUnit, if_pos again]
    rfl
  rw [refused] at ran
  exact World.runs_pure ran

def Reply.archive? : Reply → Option Path
  | .finished archive => archive
  | _ => none

theorem callsAtMost_handing (builder : Builder) (unit : String) (archive : Path) :
    (Compilation.handing builder unit archive).CallsAtMost 0 := by
  have linked : Task.CallsAtMost 0 (ExceptT.lift (Program.request (.link archive))) :=
    .lift (.request (.link archive))
  exact linked.before fun _ => .bind (builder.asks_report _).isLocal fun _ =>
    .bind (builder.asks_report _).isLocal fun _ => .pure _ _

theorem isSteady_handing (builder : Builder) (unit : String) (archive : Path) :
    (Compilation.handing builder unit archive).Asks Request.IsSteady := by
  refine .bind (.lift (.request _ fun _ => rfl)) fun _ => ?_
  have reports (event : Event) : (builder.report event).Asks Request.IsSteady :=
    .lift ((World.isReport_report _ _).mono fun _ => Request.IsReport.steady)
  exact .bind (reports _) fun _ => .bind (reports _) fun _ => .pure _ _

/-- Building a unit calls one tool at most. An archive that it ends in, and only that, has been
handed to the linker. -/
theorem ends_finishing
    (ended : World.Ends mishap world (Compilation.finishing settings builder unit state) trace
      result after) :
    (callsIn trace).length ≤ 1 ∧
      after.plan = (Reply.ofArchive result).archive?.toList.foldl LinkPlan.register world.plan := by
  have few : (Compilation.finishing settings builder unit state).CallsAtMost 1 := by
    rw [Compilation.finishing_eq]
    exact (Compilation.callsAtMost_building settings builder unit state).bind fun archive =>
      callsAtMost_handing builder unit archive
  refine ⟨World.Runs.length_callsIn few ended, ?_⟩
  rw [Compilation.finishing_eq] at ended
  obtain ⟨first, rest, outcome, between, -, built, handed⟩ := ended.bind
  have unlinked := World.Runs.plan
    ((Compilation.asks_building settings builder unit state).mono fun _ => Request.IsWork.unlinked)
    built
  cases outcome with
  | error failure =>
    obtain ⟨-, rfl, rfl⟩ := handed
    exact unlinked
  | ok archive =>
    obtain ⟨-, same⟩ := World.Runs.steady (isSteady_handing builder unit archive) handed
    obtain ⟨events, registered⟩ := Compilation.exec_handing between builder unit archive
    cases same.symm.trans registered
    exact congrArg (LinkPlan.register · archive) unlinked

/-- Nothing is built for a unit without a state. -/
theorem ends_finishUnit {compilation : Compilation} {collector : UnitCollector}
    (ended : World.Ends mishap world (compilation.finishUnit collector) trace result after) :
    ∃ first rest events, trace = first ++ rest ∧ callsIn first = [] ∧
      match collector.collected with
      | none => rest = [] ∧ result = .ok none ∧ after = { world with events }
      | some (state, hook) =>
        ∃ outcome, World.Ends mishap { world with events } (hook collector.unit state) rest
          outcome after ∧ result = outcome.map some := by
  rw [Compilation.finishUnit] at ended
  obtain ⟨first, rest, events, split, reports, later⟩ := World.ends_report_bind ended
  refine ⟨first, rest, events, split,
    callsIn_eq_nil fun exchange member => (reports exchange member).isLocal, ?_⟩
  rw [Collector.finish] at later
  rcases collected : collector.collected with _ | ⟨state, hook⟩
  · rw [collected] at later
    exact World.ends_pure later
  · rw [collected] at later
    obtain ⟨built, last, outcome, between, rfl, building, ended⟩ := later.bind
    refine ⟨outcome, ?_⟩
    cases outcome with
    | error failure =>
      obtain ⟨rfl, rfl, rfl⟩ := ended
      rw [List.append_nil]
      exact ⟨building, rfl⟩
    | ok archive =>
      obtain ⟨rfl, rfl, rfl⟩ := World.ends_pure ended
      rw [List.append_nil]
      exact ⟨building, rfl⟩

/-- Finishing a unit closes its collector, calls one tool at most and none for a unit without
calls, and hands the archive of its reply to the linker and nothing else. -/
theorem runs_finish (tracks : Tracks run unit view)
    (ran : World.Runs mishap world (run.perform (.finish unit)) trace (reply, next) after) :
    next = (world.run (run.perform (.finish unit))).1.2 ∧ (callsIn trace).length ≤ 1 ∧
      (view.held.getD [] = [] → callsIn trace = []) ∧ (view.held = none → reply = .noSuchUnit) ∧
      after.plan = reply.archive?.toList.foldl LinkPlan.register world.plan := by
  rw [perform_finish]
  cases open? : view.held with
  | none =>
    have missing : run.collector? unit = none := by rw [tracks.held, open?]; rfl
    rw [perform, missing] at ran
    obtain ⟨rfl, same, rfl⟩ := World.runs_pure ran
    cases same
    rw [missing]
    exact ⟨rfl, Nat.zero_le _, fun _ => rfl, fun _ => rfl, rfl⟩
  | some calls =>
    have held : run.collector? unit =
        some (calls.foldl Collector.after (run.compilation.collectorOf unit)) := by
      rw [tracks.held, open?]; rfl
    rw [perform, held] at ran
    rw [held]
    dsimp only at ran
    have isHeld : some calls ≠ none := Option.some_ne_none calls
    obtain ⟨first, rest, outcome, between, rfl, finished, last⟩ := ran.bind
    obtain ⟨opening, later, events, rfl, quiet, building⟩ := ends_finishUnit finished
    have gathered := Collector.gathered_foldl (run.compilation.collectorOf unit) rfl calls
    rcases collected : (calls.foldl Collector.after
      (run.compilation.collectorOf unit)).collected with _ | ⟨state, hook⟩
    · rw [collected] at building
      obtain ⟨rfl, rfl, rfl⟩ := building
      obtain ⟨rfl, same, rfl⟩ := World.runs_pure last
      cases same
      simp only [List.append_nil, quiet]
      exact ⟨rfl, Nat.zero_le _, fun _ => trivial, fun unheld => absurd unheld isHeld, rfl⟩
    · rw [collected] at building
      obtain ⟨built, ended, rfl⟩ := building
      obtain ⟨rfl, -, -⟩ := gathered.state state hook collected
      obtain ⟨few, planned⟩ := ends_finishing ended
      have some : calls ≠ [] := by
        rintro rfl
        cases collected
      cases built with
      | error failure =>
        obtain ⟨rfl, same, rfl⟩ := World.runs_pure last
        cases same
        simp only [List.append_nil, callsIn_append, quiet, List.nil_append]
        exact ⟨rfl, few, fun none => absurd none some, fun unheld => absurd unheld isHeld, planned⟩
      | ok archive =>
        obtain ⟨rfl, same, rfl⟩ := World.runs_pure last
        cases same
        simp only [List.append_nil, callsIn_append, quiet, List.nil_append]
        exact ⟨rfl, few, fun none => absurd none some, fun unheld => absurd unheld isHeld, planned⟩

end Run

end FragmentBuild
