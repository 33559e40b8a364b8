import FragmentBuild.Mishaps
import FragmentBuild.Proofs.LocalRequests

/-! Runs with mishaps, step by step. What comes after a step goes on from wherever the step has
ended, and a program that cannot be refused anything runs as if nothing went wrong. -/
namespace FragmentBuild

def Request.IsSteady (request : Request) : Prop := ∀ cause, request.refusal? cause = none

def Request.IsReport (request : Request) : Prop := ∃ event, request = .report event

theorem Request.IsReport.steady {request : Request} (isReport : request.IsReport) :
    request.IsSteady := by
  obtain ⟨event, rfl⟩ := isReport
  exact fun _ => rfl

theorem Request.IsReport.isLocal {request : Request} (isReport : request.IsReport) :
    request.IsLocal := by
  obtain ⟨event, rfl⟩ := isReport
  trivial

namespace World

variable {mishap : Mishap} {world after : World} {trace : List Exchange}

/-- A run without mishaps is one of the runs with them. -/
theorem runs_run (mishap : Mishap) (world : World) (program : Program α) :
    Runs mishap world program (world.record program) (world.run program).1
      (world.run program).2 := by
  induction program generalizing world with
  | done value => exact .done
  | ask request next ih => exact .answered (ih _ _)

theorem Runs.bind {program : Program α} {next : α → Program β}
    (ran : Runs mishap world (program >>= next) trace value after) :
    ∃ first rest middle between, trace = first ++ rest ∧
      Runs mishap world program first middle between ∧
      Runs mishap between (next middle) rest value after := by
  induction program generalizing world trace with
  | done middle => exact ⟨[], trace, middle, world, rfl, .done, ran⟩
  | ask request resume ih =>
    cases ran with
    | answered ran =>
      obtain ⟨first, rest, middle, between, rfl, before, later⟩ := ih _ ran
      exact ⟨_, rest, middle, between, rfl, .answered before, later⟩
    | refused refusal harm ran =>
      obtain ⟨first, rest, middle, between, rfl, before, later⟩ := ih _ ran
      exact ⟨_, rest, middle, between, rfl, .refused refusal harm before, later⟩

theorem runs_pure {value result : α}
    (ran : Runs mishap world (pure value) trace result after) :
    trace = [] ∧ result = value ∧ after = world := by
  cases ran
  exact ⟨rfl, rfl, rfl⟩

theorem runs_request {answered : request.Answer}
    (ran : Runs mishap world (Program.request request) trace answered after) :
    (trace = [⟨request, answered, world.machine, after.machine⟩] ∧
      answered = (world.answer request).1 ∧ after = (world.answer request).2) ∨
    ∃ cause left, request.refusal? cause = some answered ∧ mishap request world.machine left ∧
      after = { world with machine := left } ∧
      trace = [⟨request, answered, world.machine, left⟩] := by
  cases ran with
  | answered ran => cases ran; exact .inl ⟨rfl, rfl, rfl⟩
  | refused refusal harm ran => cases ran; exact .inr ⟨_, _, refusal, harm, rfl, rfl⟩

theorem Runs.mem_request {answered : request.Answer}
    (ran : Runs mishap world (Program.request request) trace answered after) :
    (⟨request, answered, world.machine, after.machine⟩ : Exchange) ∈ trace := by
  rcases runs_request ran with ⟨rfl, -⟩ | ⟨_, left, -, -, rfl, rfl⟩
  · exact List.mem_singleton_self _
  · exact List.mem_singleton_self _

/-- A program that only asks for what is never refused runs as it does without mishaps. -/
theorem Runs.steady {program : Program α} (asks : program.Asks Request.IsSteady)
    (ran : Runs mishap world program trace value after) :
    trace = world.record program ∧ world.run program = (value, after) := by
  induction program generalizing world trace with
  | done result => cases ran; exact ⟨rfl, rfl⟩
  | ask request next ih =>
    cases ran with
    | answered ran =>
      obtain ⟨rfl, same⟩ := ih _ (asks.2 _) ran
      exact ⟨rfl, same⟩
    | refused refusal harm ran => rw [asks.1] at refusal; cases refusal

/-- A run asks for nothing but what its program may ask for. -/
theorem Runs.asked {program : Program α} (asks : program.Asks allowed)
    (ran : Runs mishap world program trace value after) :
    ∀ exchange ∈ trace, allowed exchange.request := by
  induction ran with
  | done => exact fun _ member => nomatch member
  | answered ran ih => exact List.forall_mem_cons.mpr ⟨asks.1, ih (asks.2 _)⟩
  | refused refusal harm ran ih => exact List.forall_mem_cons.mpr ⟨asks.1, ih (asks.2 _)⟩

/-- Whatever goes wrong, a program that calls no tool and hands nothing to the linker leaves
the records of both as they are. -/
theorem Runs.sameRecords {program : Program α} (asks : program.Asks Request.IsLocal)
    (ran : Runs mishap world program trace value after) : SameRecords world after := by
  induction ran with
  | done => exact .refl _
  | answered ran ih =>
    exact (Program.answer_sameRecords _ _ asks.1).trans (ih (asks.2 _))
  | refused refusal harm ran ih =>
    have same := ih (asks.2 _)
    exact ⟨same.tool, same.calls, same.plan⟩

theorem answer_fixed (world : World) (request : Request) :
    (world.answer request).2.names = world.names ∧
      (world.answer request).2.tool = world.tool := by
  cases request <;> exact ⟨rfl, rfl⟩

theorem Runs.fixed {program : Program α} (ran : Runs mishap world program trace value after) :
    after.names = world.names ∧ after.tool = world.tool := by
  induction ran with
  | done => exact ⟨rfl, rfl⟩
  | answered ran ih =>
    exact ⟨ih.1.trans (answer_fixed _ _).1, ih.2.trans (answer_fixed _ _).2⟩
  | refused refusal harm ran ih => exact ih

theorem answer_plan (world : World) (request : Request) (unlinked : request.IsUnlinked) :
    (world.answer request).2.plan = world.plan := by
  cases request with
  | link archive => exact unlinked.elim
  | _ => rfl

/-- Whatever goes wrong, a program that hands nothing to the linker leaves the link plan. -/
theorem Runs.plan {program : Program α} (asks : program.Asks Request.IsUnlinked)
    (ran : Runs mishap world program trace value after) : after.plan = world.plan := by
  induction ran with
  | done => rfl
  | answered ran ih => exact (ih (asks.2 _)).trans (answer_plan _ _ asks.1)
  | refused refusal harm ran ih => exact ih (asks.2 _)

theorem ends_pure {value : α} (ended : Ends mishap world (pure value : Task α) trace result after) :
    trace = [] ∧ result = .ok value ∧ after = world :=
  runs_pure ended

theorem ends_fail {failure : Failure}
    (ended : Ends mishap world (Task.fail failure : Task α) trace result after) :
    trace = [] ∧ result = .error failure ∧ after = world :=
  runs_pure ended

/-- The first of two tasks ends, and the second one goes on from there unless it has failed. -/
theorem Ends.bind {task : Task α} {next : α → Task β}
    (ended : Ends mishap world (task >>= next) trace result after) :
    ∃ first rest outcome between, trace = first ++ rest ∧
      Ends mishap world task first outcome between ∧
      match outcome with
      | .ok value => Ends mishap between (next value) rest result after
      | .error failure => rest = [] ∧ result = .error failure ∧ after = between := by
  have unfolded : (task >>= next).run =
      task.run >>= ExceptT.bindCont (fun value => next value) := rfl
  rw [Ends, unfolded] at ended
  obtain ⟨first, rest, outcome, between, split, begun, later⟩ := ended.bind
  refine ⟨first, rest, outcome, between, split, begun, ?_⟩
  cases outcome with
  | ok value => exact later
  | error failure => exact runs_pure later

theorem ends_lift {program : Program α}
    (ended : Ends mishap world (ExceptT.lift program) trace result after) :
    ∃ value, result = .ok value ∧ Runs mishap world program trace value after := by
  have unfolded : (ExceptT.lift program : Task α).run =
      program >>= fun value => pure (.ok value) := rfl
  rw [Ends, unfolded] at ended
  obtain ⟨first, rest, value, between, rfl, ran, last⟩ := ended.bind
  obtain ⟨rfl, rfl, rfl⟩ := runs_pure last
  rw [List.append_nil]
  exact ⟨value, rfl, ran⟩

theorem ends_request_bind {request : Request} {next : request.Answer → Task α}
    (ended : Ends mishap world (liftM (Program.request request) >>= next) trace result after) :
    ∃ first rest answer between, trace = first ++ rest ∧
      Runs mishap world (Program.request request) first answer between ∧
      Ends mishap between (next answer) rest result after := by
  obtain ⟨first, rest, outcome, between, split, asked, later⟩ := ended.bind
  obtain ⟨answer, rfl, ran⟩ := ends_lift asked
  exact ⟨first, rest, answer, between, split, ran, later⟩

theorem ends_orInaccessible {program : Program (Except SystemError α)}
    (ended : Ends mishap world (Task.orInaccessible path program) trace result after) :
    ∃ answer, Runs mishap world program trace answer after ∧
      result = match answer with
        | .ok value => .ok value
        | .error cause => .error (.inaccessible path cause) := by
  rw [Ends, Task.orInaccessible, ExceptT.run_mk] at ended
  obtain ⟨first, rest, answer, between, rfl, ran, last⟩ := ended.bind
  cases answer with
  | ok value =>
    obtain ⟨rfl, rfl, rfl⟩ := runs_pure last
    rw [List.append_nil]
    exact ⟨.ok value, ran, rfl⟩
  | error cause =>
    obtain ⟨rfl, rfl, rfl⟩ := runs_pure last
    rw [List.append_nil]
    exact ⟨.error cause, ran, rfl⟩

theorem isSteady_discards {requests : List Request}
    (given : ∀ request ∈ requests, (∃ path, request = .discardFile path) ∨
      ∃ path, request = .discardTree path) :
    (Task.requestAll requests).Asks Request.IsSteady := by
  refine Task.asks_requestAll requests fun request member cause => ?_
  rcases given request member with ⟨path, rfl⟩ | ⟨path, rfl⟩ <;> rfl

theorem ends_thenDiscard {task : Task α} {discarded : List Request}
    (ended : Ends mishap world (task.thenDiscard discarded) trace result after) :
    ∃ first rest between, trace = first ++ rest ∧ Ends mishap world task first result between ∧
      Runs mishap between (Task.requestAll discarded) rest () after := by
  rw [Ends, Task.thenDiscard, ExceptT.run_mk] at ended
  obtain ⟨first, rest, outcome, between, rfl, begun, last⟩ := ended.bind
  obtain ⟨given, none, ⟨⟩, final, rfl, discards, last⟩ := last.bind
  obtain ⟨rfl, rfl, rfl⟩ := runs_pure last
  rw [List.append_nil]
  exact ⟨first, given, between, rfl, begun, discards⟩

theorem ends_onFailure {task : Task α} {discarded : List Request} :
    Ends mishap world (task.onFailure discarded) trace result after →
      ∃ first rest between, trace = first ++ rest ∧
        Ends mishap world task first result between ∧
        match result with
        | .ok _ => rest = [] ∧ after = between
        | .error _ => Runs mishap between (Task.requestAll discarded) rest () after := by
  intro ended
  rw [Ends, Task.onFailure, ExceptT.run_mk] at ended
  obtain ⟨first, rest, outcome, between, rfl, begun, last⟩ := ended.bind
  cases outcome with
  | ok value =>
    obtain ⟨rfl, rfl, rfl⟩ := runs_pure last
    exact ⟨first, [], _, rfl, begun, rfl, rfl⟩
  | error failure =>
    obtain ⟨given, none, ⟨⟩, final, rfl, discards, last⟩ := last.bind
    obtain ⟨rfl, rfl, rfl⟩ := runs_pure last
    rw [List.append_nil]
    exact ⟨first, given, between, rfl, begun, discards⟩

theorem isReport_report (verbosity : Verbosity) (event : Event) :
    (Program.report verbosity event).Asks Request.IsReport :=
  .report verbosity event ⟨event, rfl⟩

theorem ends_report_bind {next : Unit → Task α} :
    Ends mishap world (ExceptT.lift (Program.report verbosity event) >>= next) trace result
        after →
      ∃ first rest events, trace = first ++ rest ∧
        (∀ exchange ∈ first, exchange.request.IsReport) ∧
        Ends mishap { world with events } (next ()) rest result after := by
  intro ended
  obtain ⟨first, rest, outcome, between, split, reported, later⟩ := ended.bind
  obtain ⟨⟨⟩, rfl, ran⟩ := ends_lift reported
  obtain ⟨-, same⟩ := ran.steady
    ((isReport_report _ _).mono fun _ => Request.IsReport.steady)
  obtain ⟨events, told⟩ := run_report world verbosity event
  cases told.symm.trans same
  exact ⟨first, rest, events, split, ran.asked (isReport_report _ _), later⟩

end World

end FragmentBuild
