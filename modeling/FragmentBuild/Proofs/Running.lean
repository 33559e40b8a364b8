import FragmentBuild.Builder
import FragmentBuild.World

/-! Running programs step by step. A task runs like a program that ends in a value or in a
failure. What a program may ask for bounds what it can change. -/
namespace FragmentBuild

namespace World

theorem run_bind (world : World) (program : Program α) (next : α → Program β) :
    world.run (program >>= next) = (world.run program).2.run (next (world.run program).1) := by
  induction program generalizing world with
  | done value => rfl
  | ask request resume ih => exact ih _ _

@[simp] theorem run_pure (world : World) (value : α) :
    world.run (pure value : Program α) = (value, world) := rfl

@[simp] theorem run_request (world : World) (request : Request) :
    world.run (Program.request request) = world.answer request := rfl

def exec (world : World) (task : Task α) : Except Failure α × World := world.run task.run

@[simp] theorem exec_pure (world : World) (value : α) :
    world.exec (pure value : Task α) = (.ok value, world) := rfl

@[simp] theorem exec_fail (world : World) (failure : Failure) :
    world.exec (Task.fail failure : Task α) = (.error failure, world) := rfl

theorem exec_bind (world : World) (task : Task α) (next : α → Task β) :
    world.exec (task >>= next) =
      match world.exec task with
      | (.ok value, after) => after.exec (next value)
      | (.error failure, after) => (.error failure, after) := by
  have unfolded : (task >>= next).run =
      task.run >>= ExceptT.bindCont (fun value => next value) := rfl
  rw [exec, unfolded, run_bind, exec]
  rcases world.run task.run with ⟨_ | value, after⟩ <;> rfl

theorem exec_bind_ran {world after : World} {task : Task α} {next : α → Task β}
    (ran : world.exec (task >>= next) = (result, after)) :
    ∃ outcome middle, world.exec task = (outcome, middle) ∧
      (match outcome with
        | .ok value => middle.exec (next value)
        | .error failure => (.error failure, middle)) = (result, after) := by
  rw [exec_bind] at ran
  rcases first : world.exec task with ⟨failure | value, middle⟩
  · rw [first] at ran
    exact ⟨_, _, rfl, ran⟩
  · rw [first] at ran
    exact ⟨_, _, rfl, ran⟩

theorem exec_lift (world : World) (program : Program α) :
    world.exec (ExceptT.lift program) = (.ok (world.run program).1, (world.run program).2) := by
  have unfolded : (ExceptT.lift program : Task α).run =
      program >>= fun value => pure (.ok value) := rfl
  rw [exec, unfolded, run_bind]; rfl

theorem exec_liftM (world : World) (program : Program α) :
    world.exec (liftM program : Task α) = (.ok (world.run program).1, (world.run program).2) :=
  exec_lift world program

theorem exec_request_bind (world : World) (request : Request)
    (next : request.Answer → Task α) :
    world.exec (liftM (Program.request request) >>= next) =
      (world.answer request).2.exec (next (world.answer request).1) := by
  rw [exec_bind, exec_liftM, run_request]

theorem exec_orInaccessible (world : World) (path : Path)
    (program : Program (Except SystemError α)) :
    world.exec (Task.orInaccessible path program) =
      match world.run program with
      | (.ok value, after) => (.ok value, after)
      | (.error cause, after) => (.error (.inaccessible path cause), after) := by
  rw [exec, Task.orInaccessible, ExceptT.run_mk, run_bind]
  rcases world.run program with ⟨_ | value, after⟩ <;> rfl

theorem exec_thenDiscard (world : World) (task : Task α) (discarded : List Request) :
    world.exec (task.thenDiscard discarded) =
      ((world.exec task).1, ((world.exec task).2.run (Task.requestAll discarded)).2) := by
  rw [exec, Task.thenDiscard, ExceptT.run_mk, run_bind, run_bind]; rfl

theorem exec_onFailure (world : World) (task : Task α) (discarded : List Request) :
    world.exec (task.onFailure discarded) =
      match world.exec task with
      | (.ok value, after) => (.ok value, after)
      | (.error failure, after) =>
        (.error failure, (after.run (Task.requestAll discarded)).2) := by
  rw [exec, Task.onFailure, ExceptT.run_mk, run_bind, exec]
  rcases world.run task.run with ⟨failure | value, after⟩
  · exact run_bind ..
  · rfl

theorem exec_thenDiscard_ran {world after : World} {task : Task α} {discarded : List Request}
    (ran : world.exec (task.thenDiscard discarded) = (result, after)) :
    ∃ middle, world.exec task = (result, middle) ∧
      after = (middle.run (Task.requestAll discarded)).2 := by
  rw [exec_thenDiscard] at ran
  obtain ⟨rfl, rfl⟩ := Prod.mk.inj ran
  exact ⟨_, rfl, rfl⟩

theorem exec_onFailure_ran {world after : World} {task : Task α} {discarded : List Request} :
    world.exec (task.onFailure discarded) = (result, after) →
      ∃ middle, world.exec task = (result, middle) ∧
        after = match result with
          | .ok _ => middle
          | .error _ => (middle.run (Task.requestAll discarded)).2 := by
  intro ran
  rw [exec_onFailure] at ran
  rcases ended : world.exec task with ⟨failure | value, middle⟩
  · rw [ended] at ran
    cases ran
    exact ⟨_, rfl, rfl⟩
  · rw [ended] at ran
    cases ran
    exact ⟨_, rfl, rfl⟩

theorem report_cases (verbosity : Verbosity) (event : Event) :
    Program.report verbosity event = Program.request (.report event) ∨
      Program.report verbosity event = pure () := by
  cases shown : verbosity.shows event with
  | true => exact .inl (if_pos shown)
  | false => exact .inr (if_neg (by simp [shown]))

theorem run_report (world : World) (verbosity : Verbosity) (event : Event) :
    ∃ events, world.run (Program.report verbosity event) = ((), { world with events }) := by
  rcases report_cases verbosity event with asked | silent
  · exact ⟨world.events ++ [event], by rw [asked]; rfl⟩
  · exact ⟨world.events, by rw [silent]; rfl⟩

theorem exec_report (world : World) (builder : Builder) (event : Event) :
    ∃ events, world.exec (builder.report event) = (.ok (), { world with events }) := by
  obtain ⟨events, reported⟩ := run_report world builder.settings.verbosity event
  refine ⟨events, ?_⟩
  rw [Builder.report, exec_lift, reported]

theorem exec_report_bind {world after : World} {builder : Builder} {next : Unit → Task α}
    (ran : world.exec (builder.report event >>= next) = (result, after)) :
    ∃ events, ({ world with events } : World).exec (next ()) = (result, after) := by
  obtain ⟨events, reported⟩ := exec_report world builder event
  rw [exec_bind, reported] at ran
  exact ⟨events, ran⟩

theorem working_filter {working : Option Location} {holds : Location → Bool}
    (stays : working.filter holds = some here) : working = some here :=
  (Option.filter_eq_some_iff.mp stays).1

/-- A program may lose its working directory; it never gets another one. -/
theorem run_working (world : World) (program : Program α)
    (stays : (world.run program).2.machine.working = some here) :
    world.machine.working = some here := by
  have step (world : World) (request : Request)
      (stays : (world.answer request).2.machine.working = some here) :
      world.machine.working = some here := by
    have changed (result : Except SystemError Disk)
        (stays : (world.machine.change result).2.working = some here) :
        world.machine.working = some here := by
      rcases result with cause | disk
      · exact stays
      · exact working_filter stays
    cases request with
    | makeDirectories path => exact working_filter stays
    | makeDirectory path => exact changed _ stays
    | createFile path => exact changed _ stays
    | write path contents => exact changed _ stays
    | rename source target => exact changed _ stays
    | copy source target => exact changed _ stays
    | removeFile path => exact changed _ stays
    | removeTree path => exact working_filter stays
    | discardFile path => exact changed _ stays
    | discardTree path => exact working_filter stays
    | call invocation => exact working_filter stays
    | _ => exact stays
  induction program generalizing world with
  | done value => exact stays
  | ask request next ih => exact step world request (ih _ _ stays)

/-- What a program asks for when it is run. -/
def requests (world : World) : Program α → List Request
  | .done _ => []
  | .ask request next =>
    request :: (world.answer request).2.requests (next (world.answer request).1)

theorem requests_bind (world : World) (program : Program α) (next : α → Program β) :
    world.requests (program >>= next) =
      world.requests program ++ (world.run program).2.requests (next (world.run program).1) := by
  induction program generalizing world with
  | done value => rfl
  | ask request resume ih => exact congrArg (request :: ·) (ih _ _)

def asked (world : World) (task : Task α) : List Request := world.requests task.run

theorem asked_bind (world : World) (task : Task α) (next : α → Task β) :
    world.asked (task >>= next) =
      world.asked task ++
        match world.exec task with
        | (.ok value, after) => after.asked (next value)
        | (.error _, _) => [] := by
  have unfolded : (task >>= next).run =
      task.run >>= ExceptT.bindCont (fun value => next value) := rfl
  rw [asked, unfolded, requests_bind, exec]
  rcases world.run task.run with ⟨_ | value, after⟩ <;> rfl

/-- The worlds have the same tool, and nothing was called or handed to the linker between
them. -/
structure SameRecords (before after : World) : Prop where
  tool : after.tool = before.tool
  calls : after.calls = before.calls
  plan : after.plan = before.plan

theorem SameRecords.refl (world : World) : SameRecords world world := ⟨rfl, rfl, rfl⟩

theorem SameRecords.trans (first : SameRecords before middle) (second : SameRecords middle after) :
    SameRecords before after :=
  ⟨second.tool.trans first.tool, second.calls.trans first.calls, second.plan.trans first.plan⟩

theorem sameRecords_events (world : World) (events : List Event) :
    SameRecords world { world with events } := ⟨rfl, rfl, rfl⟩

end World

/-- Requests that neither call a tool nor hand anything on, be it an archive for the linker or a
text to be printed. -/
def Request.IsLocal : Request → Prop
  | .call _ | .link _ | .print _ => False
  | _ => True

def Request.IsUnlinked : Request → Prop
  | .link _ => False
  | _ => True

namespace Program

/-- Whatever the answers, the program asks only for what is allowed. -/
def Asks (allowed : Request → Prop) : Program α → Prop
  | .done _ => True
  | .ask request next => allowed request ∧ ∀ answer, (next answer).Asks allowed

theorem Asks.pure (allowed : Request → Prop) (value : α) :
    (Pure.pure value : Program α).Asks allowed := trivial

theorem Asks.request (request : Request) (permitted : allowed request) :
    (Program.request request).Asks allowed := ⟨permitted, fun _ => trivial⟩

theorem Asks.bind {program : Program α} {next : α → Program β} (first : program.Asks allowed)
    (rest : ∀ value, (next value).Asks allowed) : (program >>= next).Asks allowed := by
  induction program with
  | done value => exact rest value
  | ask request resume ih => exact ⟨first.1, fun answer => ih answer (first.2 answer)⟩

theorem Asks.mono {program : Program α} (asks : program.Asks first)
    (wider : ∀ request, first request → second request) : program.Asks second := by
  induction program with
  | done value => trivial
  | ask request next ih => exact ⟨wider request asks.1, fun answer => ih answer (asks.2 answer)⟩

theorem Asks.report (verbosity : Verbosity) (event : Event) (permitted : allowed (.report event)) :
    (Program.report verbosity event).Asks allowed := by
  rcases World.report_cases verbosity event with asked | silent
  · rw [asked]; exact Asks.request _ permitted
  · rw [silent]; exact Asks.pure allowed ()

theorem Asks.mem_requests {program : Program α} {request : Request}
    (asks : program.Asks allowed) (world : World)
    (member : request ∈ world.requests program) : allowed request := by
  induction program generalizing world with
  | done value => simp [World.requests] at member
  | ask first next ih =>
    rcases List.mem_cons.mp member with rfl | later
    · exact asks.1
    · exact ih _ (asks.2 _) _ later

theorem answer_sameRecords (world : World) (request : Request) (permitted : request.IsLocal) :
    World.SameRecords world (world.answer request).2 := by
  cases request with
  | call invocation => exact permitted.elim
  | link archive => exact permitted.elim
  | _ => exact ⟨rfl, rfl, rfl⟩

theorem Asks.sameRecords {program : Program α} (asks : program.Asks Request.IsLocal)
    (world : World) : World.SameRecords world (world.run program).2 := by
  induction program generalizing world with
  | done value => exact .refl world
  | ask request next ih =>
    exact (answer_sameRecords world request asks.1).trans (ih _ (asks.2 _) _)

end Program

namespace Task

def Asks (allowed : Request → Prop) (task : Task α) : Prop := Program.Asks allowed task.run

variable {task : Task α} {allowed : Request → Prop}

theorem Asks.pure (allowed : Request → Prop) (value : α) :
    (Pure.pure value : Task α).Asks allowed := trivial

theorem Asks.fail (allowed : Request → Prop) (failure : Failure) :
    (Task.fail failure : Task α).Asks allowed := trivial

theorem Asks.bind {next : α → Task β} (first : task.Asks allowed)
    (rest : ∀ value, (next value).Asks allowed) : (task >>= next).Asks allowed := by
  refine Program.Asks.bind first fun result => ?_
  cases result with
  | error failure => trivial
  | ok value => exact rest value

theorem Asks.lift {program : Program α} (asks : program.Asks allowed) :
    (ExceptT.lift program : Task α).Asks allowed :=
  Program.Asks.bind asks fun _ => trivial

theorem Asks.orInaccessible {program : Program (Except SystemError α)} (path : Path)
    (asks : program.Asks allowed) : (Task.orInaccessible path program).Asks allowed := by
  refine Program.Asks.bind asks fun result => ?_
  cases result <;> trivial

theorem asks_requestAll (requests : List Request)
    (permitted : ∀ request ∈ requests, allowed request) :
    (requestAll requests).Asks allowed := by
  induction requests with
  | nil => trivial
  | cons request rest ih =>
    refine Program.Asks.bind (Program.Asks.request _ (permitted request List.mem_cons_self)) ?_
    exact fun _ => ih fun other member => permitted other (List.mem_cons_of_mem _ member)

theorem Asks.thenDiscard (asks : task.Asks allowed) (discarded : List Request)
    (permitted : ∀ request ∈ discarded, allowed request) :
    (task.thenDiscard discarded).Asks allowed :=
  Program.Asks.bind asks fun _ =>
    Program.Asks.bind (asks_requestAll discarded permitted) fun _ => trivial

theorem Asks.onFailure (asks : task.Asks allowed) (discarded : List Request)
    (permitted : ∀ request ∈ discarded, allowed request) :
    (task.onFailure discarded).Asks allowed := by
  refine Program.Asks.bind asks fun result => ?_
  cases result with
  | ok value => trivial
  | error failure => exact Program.Asks.bind (asks_requestAll discarded permitted) fun _ => trivial

end Task

/-- A machine with a directory to work in and one for temporary files. -/
def Machine.small : Machine where
  disk := { entries := [(["w"], .directory), (["t"], .directory)] }
  working := some ["w"]

def World.small (tool : Tool) : World := { machine := .small, tool }

/-- Settings for the small machine, with which nothing is reported. -/
def Settings.small (mode : WorkMode) : Settings where
  verbosity := { quiet := true }
  toolchain := { scratchRoot := some ⟨"/t"⟩, workMode := mode }

end FragmentBuild
