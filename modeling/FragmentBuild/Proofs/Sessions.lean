import FragmentBuild.Proofs.StepEndings

/-! Sessions. A session is a run from its start on, in which anything may happen to the machine
between two steps and anything may go wrong within one. Over all its steps a unit is opened
once, calls one tool at most, and the link plan is what the replies say it is. -/
namespace FragmentBuild

namespace Path

/-- Of the paths that are the same only the first. -/
def firsts : List Path → List Path
  | [] => []
  | path :: rest => path :: (firsts rest).filter (!path.same ·)

theorem firsts_append (paths : List Path) (path : Path) :
    firsts (paths ++ [path]) =
      if (firsts paths).any (·.same path) then firsts paths else firsts paths ++ [path] := by
  induction paths with
  | nil => rfl
  | cons first rest ih =>
    rw [List.cons_append, firsts, ih, firsts, List.any_cons]
    by_cases again : (firsts rest).any (·.same path) = true
    · obtain ⟨other, member, same⟩ := List.any_eq_true.mp again
      have listed : (first.same path ||
          ((firsts rest).filter (!first.same ·)).any (·.same path)) = true := by
        cases dropped : first.same other with
        | true => simp_all [Path.same]
        | false =>
          refine Bool.or_eq_true_iff.mpr (.inr (List.any_eq_true.mpr ⟨other, ?_, same⟩))
          exact List.mem_filter.mpr ⟨member, by simp [dropped]⟩
      rw [if_pos again, if_pos listed]
    · have kept : ((firsts rest).filter (!first.same ·)).any (·.same path) = false := by
        simp_all
      rw [if_neg again, kept, Bool.or_false, List.filter_append]
      cases same : first.same path <;> simp [same]

end Path

theorem LinkPlan.objects_foldl_register (paths : List Path) :
    (paths.foldl register .empty).objects = Path.firsts paths := by
  induction paths using List.reverseRecOn with
  | nil => rfl
  | append_singleton paths path ih =>
    rw [List.foldl_append, Path.firsts_append, ← ih]
    exact apply_ite LinkPlan.objects _ _ _

namespace Run

def UnitView.credit (view : UnitView) : Nat :=
  if view.opened && view.held.isNone then 0 else 1

theorem archive?_perform (world : World) (run : Run) (step : Step) (open? : step.isFinish = false) :
    (world.run (run.perform step)).1.1.archive? = none := by
  cases step with
  | openUnit unit => rw [perform_openUnit]; split <;> rfl
  | call unit call =>
    rw [perform_call]
    split
    · rfl
    · rename_i collector held
      cases collector.answer call <;> rfl
  | drop unit => rfl
  | finish unit => cases open?

/-- What a step does to a run and to its own unit, whatever goes wrong. -/
structure Taken (run : Run) (view : UnitView) (step : Step) (world : World)
    (trace : List Exchange) (reply : Reply) (next : Run) (after : World) : Prop where
  leads : next = (world.run (run.perform step)).1.2
  answers : step.isFinish = false → reply = (world.run (run.perform step)).1.1
  calls : (callsIn trace).length + (view.after step).credit ≤ view.credit
  untouched : view.held.getD [] = [] → callsIn trace = []
  closed : step.isFinish = true → view.held = none → reply = .noSuchUnit
  plan : after.plan = reply.archive?.toList.foldl LinkPlan.register world.plan

theorem taken (tracks : Tracks run step.unit view) (shut : view.opened = false → view.held = none)
    (ran : World.Runs mishap world (run.perform step) trace (reply, next) after) :
    Taken run view step world trace reply next after := by
  cases finishes : step.isFinish with
  | false =>
    obtain ⟨same, quiet, planned⟩ := runs_perform finishes ran
    obtain ⟨rfl, rfl⟩ := Prod.mk.inj same
    refine ⟨rfl, fun _ => rfl, ?_, fun _ => quiet, fun done => ?_, ?_⟩
    · rw [quiet]
      cases step with
      | openUnit unit =>
        rw [UnitView.after]
        cases was : view.opened <;> simp [UnitView.credit, was]
      | call unit call => simp [UnitView.credit, UnitView.after]
      | drop unit => simp [UnitView.credit, UnitView.after]; grind
      | finish unit => cases finishes
    · cases finishes.symm.trans done
    · rw [archive?_perform _ _ _ finishes]
      exact planned
  | true =>
    obtain ⟨unit, rfl⟩ : ∃ unit, step = .finish unit := by
      cases step <;> first | exact ⟨_, rfl⟩ | cases finishes
    obtain ⟨same, few, untouched, closed, planned⟩ := runs_finish tracks ran
    refine ⟨same, (fun unfinished => by cases unfinished), ?_, untouched, fun _ => closed, planned⟩
    cases was : view.held with
    | none =>
      rw [untouched (by rw [was]; rfl)]
      simp [UnitView.credit, UnitView.after, was]
    | some calls =>
      have opened : view.opened = true := by
        by_contra closed
        cases was.symm.trans (shut (by simpa using closed))
      simpa [UnitView.credit, UnitView.after, was, opened] using few

/-- A step of a session: what it was taken on, what it asked for, and what came of it. -/
structure Moment where
  before : World
  run : Run
  step : Step
  trace : List Exchange
  reply : Reply
  next : Run
  after : World

/-- The runs that begin with an empty link plan, with all their steps. Before each step
everything but the link plan may have changed. -/
inductive Session (settings : Settings) (policy : Policy) : List Moment → Run → World → Prop
  | start : begun.plan = .empty →
      World.Runs .anything begun (Run.start settings policy) trace run world →
      Session settings policy [] run world
  | further : Session settings policy moments run world → before.plan = world.plan →
      World.Runs .anything before (run.perform step) trace (reply, next) after →
      Session settings policy (moments ++ [⟨before, run, step, trace, reply, next, after⟩])
        next after

namespace Session

/-- What the steps of a session have made of a unit. -/
def view (unit : String) (moments : List Moment) : UnitView :=
  UnitView.along unit {} (moments.map (·.step))

theorem view_append (unit : String) (moments : List Moment) (moment : Moment) :
    view unit (moments ++ [moment]) =
      if moment.step.unit = unit then (view unit moments).after moment.step
      else view unit moments := by
  rw [view, List.map_append]
  exact Run.view_append unit {} _ _

theorem shut (unit : String) (moments : List Moment)
    (closed : (view unit moments).opened = false) : (view unit moments).held = none :=
  (gathers_along unit _).shut closed

variable {settings : Settings} {policy : Policy} {moments : List Moment} {run : Run}
  {world : World}

theorem asks_start : (Run.start settings policy).Asks fun request =>
    request.IsSteady ∧ request.IsUnlinked := by
  have rooted : (Scratch.ofToolchain settings.toolchain).Asks fun request =>
      request.IsSteady ∧ request.IsUnlinked := by
    rw [Scratch.ofToolchain]
    split
    · exact .pure _ _
    · refine .bind (.bind (.request _ ⟨fun _ => rfl, trivial⟩) fun _ => .pure _ _) fun _ => ?_
      exact .pure _ _
  exact .bind (.bind (.bind rooted fun _ => .pure _ _) fun _ => .pure _ _) fun _ => .pure _ _

theorem tracks (session : Session settings policy moments run world) (unit : String) :
    Tracks run unit (view unit moments) := by
  induction session generalizing unit with
  | start empty ran =>
    rename_i begun trace run world
    obtain ⟨-, same⟩ := ran.steady (asks_start.mono fun _ both => both.1)
    have new := tracks_start begun settings policy unit
    rwa [same] at new
  | further session planned ran ih =>
    rename_i moments run world before step trace reply next after
    have came := (taken (ih step.unit) (shut step.unit moments) ran).leads
    rw [view_append, came]
    by_cases own : step.unit = unit
    · subst own
      rw [if_pos rfl]
      exact ((ih step.unit).own before step rfl).1
    · rw [if_neg own]
      exact (ih unit).other before step (Ne.symm own)

/-- What a step of a session does to the run and to its unit. -/
theorem taken {step : Step} (session : Session settings policy moments run world)
    (ran : World.Runs .anything before (run.perform step) trace (reply, next) after) :
    Taken run (view step.unit moments) step before trace reply next after :=
  Run.taken (session.tracks step.unit) (shut step.unit moments) ran

/-- The tool calls of the steps that name a unit. -/
def toolCalls (unit : String) (moments : List Moment) : List Invocation :=
  moments.flatMap fun moment => if moment.step.unit = unit then callsIn moment.trace else []

theorem toolCalls_append (unit : String) (moments : List Moment) (moment : Moment) :
    toolCalls unit (moments ++ [moment]) =
      toolCalls unit moments ++ if moment.step.unit = unit then callsIn moment.trace else [] := by
  simp [toolCalls]

def Opens (unit : String) (moment : Moment) : Prop :=
  moment.step = .openUnit unit ∧ moment.reply = .opened

def Reaches (unit : String) (moment : Moment) : Prop :=
  (moment.step.callOn? unit).isSome ∧ moment.reply ≠ .noSuchUnit

theorem opened_iff (session : Session settings policy moments run world) (unit : String) :
    (view unit moments).opened = true ↔ ∃ moment ∈ moments, Opens unit moment := by
  induction session with
  | start empty ran => simp [view, UnitView.along]
  | further session planned ran ih =>
    rename_i moments run world before step trace reply next after
    simp only [List.mem_append, List.mem_singleton, or_and_right, exists_or, exists_eq_left, ← ih]
    rw [view_append]
    by_cases own : step.unit = unit
    · rw [if_pos own]
      cases step with
      | openUnit other =>
        obtain rfl : other = unit := own
        have answered := ((session.tracks other).own before (.openUnit other) rfl).2 _ rfl
        rw [← (session.taken ran).answers rfl] at answered
        cases was : (view other moments).opened with
        | true => simp [UnitView.after, was]
        | false =>
          rw [was] at answered
          simp [UnitView.after, was, Opens, answered]
      | call other call => simp [UnitView.after, Opens]
      | drop other => simp [UnitView.after, Opens]
      | finish other => simp [UnitView.after, Opens]
    · rw [if_neg own]
      have apart : step ≠ .openUnit unit := by
        rintro rfl
        exact own rfl
      simp [Opens, apart]

theorem calls_le (session : Session settings policy moments run world) (unit : String) :
    (toolCalls unit moments).length + (view unit moments).credit ≤ 1 := by
  induction session with
  | start empty ran => simp [toolCalls, view, UnitView.along, UnitView.credit]
  | further session planned ran ih =>
    rename_i moments run world before step trace reply next after
    rw [toolCalls_append, view_append, List.length_append]
    by_cases own : step.unit = unit
    · subst own
      have paid := (session.taken ran).calls
      simp only [if_true] at paid ⊢
      omega
    · simpa [own] using ih

/-- Whether a step has finished a unit whose collector was open. -/
def Moment.finishes (unit : String) (moment : Moment) : Bool :=
  moment.step.isFinish && moment.step.unit == unit && moment.reply != .noSuchUnit

/-- A unit that was finished can not be built any more. -/
theorem finishings_le (session : Session settings policy moments run world) (unit : String) :
    moments.countP (Moment.finishes unit) + (view unit moments).credit ≤ 1 := by
  induction session with
  | start empty ran => simp [view, UnitView.along, UnitView.credit]
  | further session planned ran ih =>
    rename_i moments run world before step trace reply next after
    rw [List.countP_append, List.countP_singleton, view_append]
    by_cases own : step.unit = unit
    · subst own
      have taken := session.taken ran
      have paid := taken.calls
      have closed := taken.closed
      simp only [Moment.finishes, beq_self_eq_true, Bool.and_true, if_true]
      cases finished : step.isFinish && reply != .noSuchUnit with
      | false =>
        rw [if_neg Bool.false_ne_true]
        omega
      | true =>
        rw [Bool.and_eq_true, bne_iff_ne] at finished
        obtain ⟨finishes, replied⟩ := finished
        have held : (view step.unit moments).held ≠ none := mt (closed finishes) replied
        have opened : (view step.unit moments).opened = true := by
          by_contra unopened
          exact held (shut step.unit moments (by simpa using unopened))
        cases step <;> cases finishes
        rename_i unit
        change (view unit moments).held ≠ none at held
        change (view unit moments).opened = true at opened
        simp [UnitView.credit, UnitView.after, Step.unit, opened, held] at ih ⊢
        omega
    · simpa [own, Moment.finishes] using ih

/-- A unit for which something is gathered or built has been called. -/
theorem reached (session : Session settings policy moments run world) (unit : String)
    (used : (view unit moments).held.getD [] ≠ [] ∨ toolCalls unit moments ≠ []) :
    ∃ moment ∈ moments, Reaches unit moment := by
  induction session with
  | start empty ran => simp [view, UnitView.along, toolCalls] at used
  | further session planned ran ih =>
    rename_i moments run world before step trace reply next after
    simp only [List.mem_append, List.mem_singleton, or_and_right, exists_or, exists_eq_left]
    rw [view_append, toolCalls_append] at used
    by_cases own : step.unit = unit
    · subst own
      have taken := session.taken ran
      simp only [if_true] at used
      by_cases earlier : (view step.unit moments).held.getD [] ≠ [] ∨
          toolCalls step.unit moments ≠ []
      · exact .inl (ih earlier)
      · obtain ⟨nothing, none⟩ := not_or.mp earlier
        rw [not_not] at nothing none
        rw [taken.untouched nothing, none, List.append_nil, or_iff_left (by simp)] at used
        refine .inr ?_
        cases step with
        | openUnit other =>
          rw [UnitView.after] at used
          split at used
          · exact absurd nothing used
          · exact absurd rfl used
        | call other call =>
          cases open? : (view other moments).held with
          | none => simp [UnitView.after, Step.unit, open?] at used
          | some calls =>
            have answered := ((session.tracks other).own before (.call other call) rfl).2 _ rfl
            rw [← taken.answers rfl, open?] at answered
            refine ⟨by simp [Step.callOn?, Step.unit], ?_⟩
            dsimp only at answered ⊢
            rw [answered]
            generalize Collector.answer _ _ = outcome
            cases outcome <;> rintro ⟨⟩
        | drop other => exact absurd rfl used
        | finish other => exact absurd rfl used
    · rw [if_neg own, if_neg own, List.append_nil] at used
      exact .inl (ih used)

theorem plan_eq (session : Session settings policy moments run world) :
    world.plan = (moments.filterMap (·.reply.archive?)).foldl LinkPlan.register .empty := by
  induction session with
  | start empty ran =>
    exact (ran.plan (asks_start.mono fun _ both => both.2)).trans empty
  | further session planned ran ih =>
    rename_i moments run world before step trace reply next after
    rw [(session.taken ran).plan, planned, ih, List.filterMap_append, List.foldl_append]
    cases handed : reply.archive? <;> simp [handed]

/-- Steps that are performed one after the other go on with a session. -/
theorem performed {steps : List Step} (session : Session settings policy moments run world)
    (ran : World.Runs .anything world (run.performAll steps) trace (replies, last) after) :
    ∃ more, Session settings policy (moments ++ more) last after ∧
      more.map (·.step) = steps ∧ more.map (·.reply) = replies := by
  induction steps generalizing moments run world trace replies with
  | nil =>
    obtain ⟨-, same, rfl⟩ := World.runs_pure ran
    cases same
    exact ⟨[], by rwa [List.append_nil], rfl, rfl⟩
  | cons step rest ih =>
    obtain ⟨first, later, ⟨reply, next⟩, between, -, stepped, ran⟩ := ran.bind
    obtain ⟨second, none, ⟨others, final⟩, ended, -, went, ran⟩ := ran.bind
    obtain ⟨-, same, rfl⟩ := World.runs_pure ran
    cases same
    obtain ⟨more, whole, steps, replies⟩ := ih (session.further rfl stepped) went
    exact ⟨_ :: more, by rwa [List.append_assoc] at whole, by rw [List.map_cons, steps],
      by rw [List.map_cons, replies]⟩

end Session

end Run

open Run.Session in
/-- Whatever happens between the steps of a session and whatever goes wrong within them: a unit
can be opened if and only if it has not been opened yet, and opening it again changes nothing;
a unit is finished once at most and calls one tool at most in the whole session, and none unless
it has been called; the link plan holds the archives of the replies, each path once, in the order
in which the units were finished; and finishing a unit in vain changes neither the link plan nor
what is open otherwise. -/
theorem units_are_built_once {run : Run} (session : Run.Session settings policy moments run world)
    (unit : String) :
    (∀ before trace reply next after,
      World.Runs .anything before (run.perform (.openUnit unit)) trace (reply, next) after →
        (reply = .opened ↔ ¬ ∃ moment ∈ moments, Opens unit moment) ∧
          (reply ≠ .opened →
            reply = .failed (.unitAlreadyOpen unit) ∧ next = run ∧ after = before)) ∧
      moments.countP (Moment.finishes unit) ≤ 1 ∧ (toolCalls unit moments).length ≤ 1 ∧
      ((∀ moment ∈ moments, ¬ Reaches unit moment) → toolCalls unit moments = []) ∧
      world.plan.objects = Path.firsts (moments.filterMap (·.reply.archive?)) ∧
      ∀ before trace failure next after,
        World.Runs .anything before (run.perform (.finish unit)) trace (.failed failure, next)
          after →
        after.plan = before.plan ∧ next.compilation = run.compilation ∧
          ∀ other, other ≠ unit → next.collector? other = run.collector? other := by
  refine ⟨fun before trace reply next after ran => ?_, ?_, ?_, fun untouched => ?_, ?_,
    fun before trace failure next after ran => ?_⟩
  · rw [← session.opened_iff, ← (session.tracks unit).opened]
    have came := (Run.runs_perform rfl ran).1
    rw [Run.perform_openUnit] at came
    cases again : run.compilation.opened.contains unit with
    | true =>
      obtain ⟨-, -, rfl⟩ := Run.runs_openUnit_again again ran
      rw [if_pos again] at came
      cases came
      exact ⟨by simp, fun _ => ⟨rfl, rfl, rfl⟩⟩
    | false =>
      rw [if_neg (by rw [again]; exact Bool.false_ne_true)] at came
      cases came
      exact ⟨by simp, fun refused => absurd rfl refused⟩
  · have paid := session.finishings_le unit
    omega
  · have paid := session.calls_le unit
    omega
  · by_contra called
    obtain ⟨moment, member, reaches⟩ := session.reached unit (.inr called)
    exact untouched moment member reaches
  · rw [session.plan_eq, LinkPlan.objects_foldl_register]
  · have taken := session.taken ran
    refine ⟨taken.plan, ?_, fun other apart => ?_⟩
    · rw [taken.leads, Run.perform_finish]
      split <;> rfl
    · rw [taken.leads, Run.perform_finish]
      split
      · rw [Run.collector?_without, if_neg apart]
      · rfl

/-- Two units of which one is opened again and again and the other one is never called. -/
def Run.Step.reopening : List Run.Step :=
  [.openUnit "u", .openUnit "v", .openUnit "u", .call "u" (.fragment "fn f() {}"), .finish "u",
    .openUnit "u", .call "u" (.fragment "fn g() {}"), .finish "u", .finish "v"]

/-- The unit is built once, and its archive is all that is linked. -/
theorem units_are_built_once_reopened :
    ∃ moments run world, Run.Session (.small .unique) .empty moments run world ∧
      moments.map (·.step) = Run.Step.reopening ∧
      moments.countP (Run.Session.Moment.finishes "u") ≤ 1 ∧
      (Run.Session.toolCalls "u" moments).length ≤ 1 ∧
      Run.Session.toolCalls "v" moments = [] ∧
      world.plan.objects = [⟨"/t/graft-aaaaab.a"⟩] := by
  have begun : Run.Session (.small .unique) .empty []
      ((World.small (ScriptedTool.archive .empty).tool).run
        (Run.start (.small .unique) .empty)).1
      ((World.small (ScriptedTool.archive .empty).tool).run
        (Run.start (.small .unique) .empty)).2 := .start rfl (World.runs_run _ _ _)
  obtain ⟨moments, session, steps, replies⟩ :=
    begun.performed (World.runs_run .anything _ (Run.performAll _ Run.Step.reopening))
  obtain ⟨-, finished, once, -, linked, -⟩ := units_are_built_once session "u"
  obtain ⟨-, -, -, never, -⟩ := units_are_built_once session "v"
  refine ⟨_, _, _, session, steps, finished, once, never fun moment member reaches => ?_, ?_⟩
  · have named : moment.step ∈ Run.Step.reopening := steps ▸ List.mem_map_of_mem member
    have uncalled : ∀ step ∈ Run.Step.reopening, step.callOn? "v" = none := by decide
    exact absurd (uncalled _ named) (by simpa using Option.isSome_iff_ne_none.mp reaches.1)
  · have handed := congrArg (List.filterMap Run.Reply.archive?) replies
    rw [List.filterMap_map] at handed
    refine linked.trans ((congrArg Path.firsts handed).trans ?_)
    decide +kernel

end FragmentBuild
