import FragmentBuild.Proofs.FinishSteps
import FragmentBuild.Proofs.ToolReads

/-! Units of one run share the settings, the link plan and the disk and nothing else. The
replies to the steps of a unit depend on these steps alone, and what a tool reads when a unit
is finished is made of the calls on that unit alone. -/
namespace FragmentBuild

namespace Run

/-- Whether a step finishes a unit; its reply depends on the tool. -/
def Step.isFinish : Step → Bool
  | .finish _ => true
  | _ => false

/-- The replies to a unit's own steps as its view has them. -/
def UnitView.replies (unit : String) (policy : Policy) (view : UnitView) : List Step → List Reply
  | [] => []
  | step :: rest =>
    (view.reply? unit policy step).toList ++ (view.after step).replies unit policy rest

def Step.opens (unit : String) : Step → Bool
  | .openUnit other => other == unit
  | _ => false

def Step.callOn? (unit : String) : Step → Option Collector.Call
  | .call other made => if other = unit then some made else none
  | _ => none

/-- The steps from the one that opens a unit on. -/
def sinceOpened (unit : String) (steps : List Step) : List Step :=
  steps.dropWhile fun step => !step.opens unit

/-- The calls on a unit since it was opened. -/
def callsOn (unit : String) (steps : List Step) : List Collector.Call :=
  (sinceOpened unit steps).filterMap (Step.callOn? unit)

theorem sinceOpened_append (unit : String) (steps : List Step) (step : Step) :
    sinceOpened unit (steps ++ [step]) =
      if sinceOpened unit steps = [] then (if step.opens unit then [step] else [])
      else sinceOpened unit steps ++ [step] := by
  rw [sinceOpened, List.dropWhile_append, ← sinceOpened]
  by_cases none : sinceOpened unit steps = []
  · cases opens : step.opens unit <;> simp [none, List.dropWhile, opens]
  · simp [none]

theorem callsOn_append (opened : sinceOpened unit steps ≠ []) (step : Step) :
    callsOn unit (steps ++ [step]) = callsOn unit steps ++ (step.callOn? unit).toList := by
  rw [callsOn, sinceOpened_append, if_neg opened, List.filterMap_append, ← callsOn]
  cases called : step.callOn? unit <;> simp [called]

theorem view_append (unit : String) (view : UnitView) (steps : List Step) (step : Step) :
    view.along unit (steps ++ [step]) =
      if step.unit = unit then (view.along unit steps).after step else view.along unit steps := by
  by_cases own : step.unit = unit <;> simp [UnitView.along, own]

/-- What a view has gathered are the calls since the unit was opened. -/
structure UnitView.Gathers (view : UnitView) (unit : String) (steps : List Step) : Prop where
  opened : view.opened = true ↔ sinceOpened unit steps ≠ []
  shut : view.opened = false → view.held = none
  held : ∀ calls, view.held = some calls → calls = callsOn unit steps

theorem UnitView.Gathers.sinceOpened_eq_nil (gathers : UnitView.Gathers view unit steps)
    (shut : view.opened = false) : sinceOpened unit steps = [] := by
  by_contra opened
  rw [gathers.opened.mpr opened] at shut
  cases shut

theorem UnitView.Gathers.skip (gathers : UnitView.Gathers view unit steps) (step : Step)
    (opens : step.opens unit = false) (calls : step.callOn? unit = none) :
    UnitView.Gathers view unit (steps ++ [step]) := by
  by_cases none : sinceOpened unit steps = []
  · have still : sinceOpened unit (steps ++ [step]) = [] := by
      simp [sinceOpened_append, none, opens]
    refine ⟨gathers.opened.trans (by simp [none, still]), gathers.shut, fun made held => ?_⟩
    rw [gathers.held made held, callsOn, callsOn, none, still]
  · refine ⟨gathers.opened.trans (by simp [sinceOpened_append, none]), gathers.shut,
      fun made held => ?_⟩
    rw [gathers.held made held, callsOn_append none, calls]
    exact (List.append_nil _).symm

theorem gathers_along (unit : String) (steps : List Step) :
    UnitView.Gathers (UnitView.along unit {} steps) unit steps := by
  induction steps using List.reverseRecOn with
  | nil => exact ⟨by simp [UnitView.along, sinceOpened], fun _ => rfl, fun _ held => by cases held⟩
  | append_singleton steps step ih =>
    rw [view_append]
    generalize UnitView.along unit {} steps = view at ih
    by_cases own : step.unit = unit
    · rw [if_pos own]
      cases step with
      | openUnit other =>
        obtain rfl : other = unit := own
        have opens : (Step.openUnit other).opens other = true := by simp [Step.opens]
        rw [UnitView.after]
        cases was : view.opened with
        | true =>
          have since := ih.opened.mp was
          refine ⟨by simp [was, sinceOpened_append, since], by simp [was], fun calls held => ?_⟩
          rw [callsOn_append since, ih.held calls held]
          exact (List.append_nil _).symm
        | false =>
          have since := ih.sinceOpened_eq_nil was
          refine ⟨by simp [sinceOpened_append, since, opens], fun shut => ?_, fun calls held => ?_⟩
          · cases shut
          · cases held
            simp [callsOn, sinceOpened_append, since, opens, Step.callOn?]
      | call other made =>
        obtain rfl : other = unit := own
        have opens : (Step.call other made).opens other = false := rfl
        rw [UnitView.after]
        cases was : view.opened with
        | true =>
          have since := ih.opened.mp was
          refine ⟨by simp [sinceOpened_append, since], by simp, fun calls held => ?_⟩
          obtain ⟨earlier, before, rfl⟩ := Option.map_eq_some_iff.mp held
          rw [callsOn_append since, ih.held earlier before]
          simp [Step.callOn?]
        | false =>
          have since := ih.sinceOpened_eq_nil was
          have shut := ih.shut was
          refine ⟨by simp [sinceOpened_append, since, opens], by simp [shut], ?_⟩
          simp [shut]
      | drop other =>
        have skipped := ih.skip (.drop other) rfl rfl
        exact ⟨skipped.opened, fun _ => rfl, fun _ held => by cases held⟩
      | finish other =>
        have skipped := ih.skip (.finish other) rfl rfl
        exact ⟨skipped.opened, fun _ => rfl, fun _ held => by cases held⟩
    · rw [if_neg own]
      refine ih.skip step ?_ ?_
      · cases step <;> simp_all [Step.unit, Step.opens]
      · cases step <;> simp_all [Step.unit, Step.callOn?]

end Run

/-- A unit's last step calls a tool at most once, on what the unit has gathered. -/
theorem finish_reads {run next : Run} {world after : World} (tracks : Run.Tracks run unit view)
    (settings : run.compilation.builder.settings = run.compilation.settings)
    (shows : ∀ calls, view.held = some calls →
      calls.filterMap Collector.Call.dependency? ≠ [] →
        world.machine.ShowsFilesHere run.compilation.settings.toolchain)
    (ran : world.run (run.perform (.finish unit)) = ((reply, next), after))
    (reached : after.calls ≠ world.calls) :
    ∃ calls invocation machine, view.held = some calls ∧
      after.calls = world.calls ++ [(invocation, machine)] ∧
      ReadsUnit run.compilation.settings.toolchain (calls.filterMap Collector.Call.fragment?)
        (calls.filterMap Collector.Call.dependency?) invocation machine := by
  have outcome := Run.perform_finish_cases world run tracks
  rw [ran] at outcome
  obtain same | ⟨calls, state, here, result, built, held, build, -⟩ := outcome
  · exact absurd same reached
  obtain ⟨events, building⟩ := build.ran
  rw [← settings] at building
  have shown : state.dependencies ≠ [] → ({ world with events } : World).machine.ShowsFiles
      run.compilation.builder.settings.toolchain (Machine.locationPath here) := by
    rw [settings, build.dependencies]
    exact fun some => shows calls held some here build.working
  rcases World.build_reads _ state (World.isAbsolute_locationPath here) shown building with
    same | ⟨invocation, machine, call, reads⟩
  · exact absurd (build.calls.trans same.calls) reached
  rw [settings, build.fragments, build.dependencies] at reads
  exact ⟨calls, invocation, machine, held, build.calls.trans call.calls, reads⟩

/-- A shared working directory in which an earlier build has left its source file. -/
def World.used : World :=
  { World.small ScriptedTool.idle.tool with
    machine.disk.entries :=
      [(["t"], .directory), (["w"], .directory), (["w", ".graft-quasiquote"], .directory),
        (["w", ".graft-quasiquote", "quasiquote.rs"], .file "fn old() {}".toUTF8 false)] }

end FragmentBuild
