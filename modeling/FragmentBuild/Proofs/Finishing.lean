import FragmentBuild.Compilation
import FragmentBuild.Proofs.DirectBuild
import FragmentBuild.Proofs.PackageBuild

/-! Finishing a unit: its state becomes a job, the job is built, and only an archive that was
built is handed to the linker. -/
namespace FragmentBuild

namespace Compilation

def building (settings : Settings) (builder : Builder) (unit : String) (state : UnitState) :
    Task Path := do
  builder.report (.phase 0 ("Grafting " ++ unit))
  let workRoot ← Task.orInaccessible ⟨"."⟩ (Program.request .workingDirectory)
  builder.report (Job.synthesized state)
  builder.build (Job.ofState state settings.toolchain workRoot)

def handing (builder : Builder) (unit : String) (archive : Path) : Task Path := do
  let _ ← Program.request (.link archive)
  builder.report (.topic .link (unit ++ ": registered " ++ archive.display))
  builder.report (.phase 0 ("Built " ++ archive.display))
  return archive

theorem finishing_eq (settings : Settings) (builder : Builder) (unit : String)
    (state : UnitState) :
    finishing settings builder unit state =
      building settings builder unit state >>= handing builder unit := by
  simp only [finishing, building, bind_assoc]
  rfl

theorem exec_handing (world : World) (builder : Builder) (unit : String) (archive : Path) :
    ∃ events, world.exec (handing builder unit archive) =
      (.ok archive, { world with events, plan := world.plan.register archive }) := by
  rcases ran : world.exec (handing builder unit archive) with ⟨result, after⟩
  rw [handing, World.exec_request_bind] at ran
  obtain ⟨_, ran⟩ := World.exec_report_bind ran
  obtain ⟨events, ran⟩ := World.exec_report_bind ran
  cases ran
  exact ⟨events, rfl⟩

end Compilation

/-- Finishing a unit runs the hook once, on the state that has been collected, or it runs
nothing. -/
theorem Compilation.exec_finishUnit (world : World) (compilation : Compilation)
    (collector : UnitCollector) :
    ∃ events, world.exec (compilation.finishUnit collector) =
      match collector.collected with
      | none => (.ok none, { world with events })
      | some (state, hook) =>
        ((({ world with events } : World).exec (hook collector.unit state)).1.map some,
          (({ world with events } : World).exec (hook collector.unit state)).2) := by
  obtain ⟨events, reported⟩ := World.run_report world compilation.settings.verbosity
    collector.closing
  refine ⟨events, ?_⟩
  rw [finishUnit, World.exec_bind, World.exec_lift, reported, Collector.finish]
  rcases collector.collected with _ | ⟨state, hook⟩
  · rfl
  · dsimp only [Option.map_some]
    rw [World.exec_bind]
    rcases ({ world with events } : World).exec (hook collector.unit state) with
      ⟨failure | archive, after⟩ <;> rfl

namespace World

variable {world after : World}

theorem exec_build (builder : Builder) (job : Job)
    (ran : world.exec (builder.build job) = (result, after)) :
    ∃ events, match job.manifest with
      | none => ({ world with events } : World).exec (builder.buildDirect job) = (result, after)
      | some manifest =>
        ({ world with events } : World).exec (builder.buildPackage job manifest) =
          (result, after) := by
  rw [Builder.build] at ran
  obtain ⟨events, ran⟩ := exec_report_bind ran
  refine ⟨events, ?_⟩
  cases described : job.manifest with
  | none => rw [described] at ran; exact ran
  | some manifest => rw [described] at ran; exact ran

theorem build_called (builder : Builder) (job : Job)
    (ran : world.exec (builder.build job) = (result, after)) :
    SameRecords world after ∨ ∃ invocation machine, Called world after invocation machine := by
  obtain ⟨events, ran⟩ := exec_build builder job ran
  have untouched := sameRecords_events world events
  cases described : job.manifest with
  | none =>
    rw [described] at ran
    rcases buildDirect_cases builder job ran with ⟨-, same⟩ | ⟨_, _, machine, -, call, -⟩
    · exact .inl (untouched.trans same)
    · exact .inr ⟨_, machine, call.ofLocal untouched⟩
  | some manifest =>
    rw [described] at ran
    rcases buildPackage_cases builder job manifest ran with ⟨-, same⟩ | ⟨_, machine, -, call, -⟩
    · exact .inl (untouched.trans same)
    · exact .inr ⟨_, machine, call.ofLocal untouched⟩

/-- A unit without a working directory fails before the build. In any other one the job is built
there. -/
theorem exec_building (settings : Settings) (builder : Builder) (unit : String)
    (state : UnitState)
    (ran : world.exec (Compilation.building settings builder unit state) = (result, after)) :
    ∃ events, match world.machine.working with
      | none => result = .error (.inaccessible ⟨"."⟩ .notFound) ∧ after = { world with events }
      | some here =>
        ({ world with events } : World).exec (builder.build
          (Job.ofState state settings.toolchain (Machine.locationPath here))) =
            (result, after) := by
  rw [Compilation.building] at ran
  obtain ⟨first, ran⟩ := exec_report_bind ran
  rw [exec_bind, exec_orInaccessible, run_request] at ran
  dsimp only [answer] at ran
  cases place : world.machine.working with
  | none =>
    rw [place] at ran
    cases ran
    exact ⟨first, rfl, rfl⟩
  | some here =>
    rw [place] at ran
    obtain ⟨second, ran⟩ := exec_report_bind ran
    exact ⟨second, ran⟩

/-- Finishing a unit either fails before the build or ends as the build does. -/
theorem finishing_cases (settings : Settings) (builder : Builder) (unit : String)
    (state : UnitState)
    (ran : world.exec (Compilation.finishing settings builder unit state) = (result, after)) :
    ((∃ path cause, result = .error (.inaccessible path cause)) ∧ SameRecords world after) ∨
      ∃ here events, world.machine.working = some here ∧ ∃ built,
        ({ world with events } : World).exec (builder.build
          (Job.ofState state settings.toolchain (Machine.locationPath here))) = (result, built) ∧
        ((∃ failure, result = .error failure ∧ after = built) ∨
          ∃ archive events, result = .ok archive ∧
            after = { built with events, plan := built.plan.register archive }) := by
  rw [Compilation.finishing_eq] at ran
  obtain ⟨outcome, built, begun, ran⟩ := exec_bind_ran ran
  obtain ⟨events, begun⟩ := exec_building settings builder unit state begun
  cases place : world.machine.working with
  | none =>
    rw [place] at begun
    obtain ⟨rfl, rfl⟩ := begun
    cases ran
    exact .inl ⟨⟨_, _, rfl⟩, sameRecords_events world events⟩
  | some here =>
    rw [place] at begun
    refine .inr ⟨here, events, rfl, built, ?_⟩
    cases outcome with
    | error failure => cases ran; exact ⟨begun, .inl ⟨failure, rfl, rfl⟩⟩
    | ok archive =>
      obtain ⟨later, handed⟩ := Compilation.exec_handing built builder unit archive
      cases handed.symm.trans ran
      exact ⟨begun, .inr ⟨archive, later, rfl, rfl⟩⟩

end World

/-- Requests that hand nothing on, neither an archive to the linker nor a text to be printed. -/
def Request.IsWork : Request → Prop
  | .link _ | .print _ => False
  | _ => True

theorem Request.IsWork.unlinked {request : Request} (isWork : request.IsWork) :
    request.IsUnlinked := by
  cases request <;> trivial

theorem Request.IsLocal.isWork {request : Request} (isLocal : request.IsLocal) :
    request.IsWork := by
  cases request <;> trivial

theorem Task.Asks.isWork {task : Task α} (asks : task.Asks Request.IsLocal) :
    task.Asks Request.IsWork :=
  Program.Asks.mono asks fun _ => Request.IsLocal.isWork

/-- The requests of a build, but for the removal of its working directory. -/
def Request.IsBuildStep : Request → Prop
  | .link _ | .print _ | .removeTree _ => False
  | _ => True

theorem Request.IsBuildStep.isWork {request : Request} (isStep : request.IsBuildStep) :
    request.IsWork := by
  cases request <;> trivial

theorem Task.Asks.isBuildStep {task : Task α} (asks : task.Asks Request.IsScratch) :
    task.Asks Request.IsBuildStep :=
  Program.Asks.mono asks fun request isScratch => by
    cases request <;> trivial

namespace Builder

theorem asks_report (builder : Builder) (event : Event) :
    (builder.report event).Asks Request.IsScratch := .lift (.report _ _ trivial)

theorem asks_writeFile (path : Path) (text : String) :
    (writeFile path text).Asks Request.IsScratch := .orInaccessible _ (.request _ trivial)

theorem asks_callTool (builder : Builder) (invocation : Invocation) (action : String) :
    (builder.callTool invocation action).Asks fun request =>
      (∃ event, request = .report event) ∨ request = .call invocation := by
  refine .bind (.lift (.report _ _ (.inl ⟨_, rfl⟩))) fun _ => ?_
  refine .bind (.lift (.request _ (.inr rfl))) fun answer => ?_
  cases answer with
  | error cause => exact .fail _ _
  | ok report =>
    dsimp only
    split
    · exact .bind (.lift (.report _ _ (.inl ⟨_, rfl⟩))) fun _ => .fail _ _
    · exact .pure _ _

theorem isBuildStep_callTool (builder : Builder) (invocation : Invocation) (action : String) :
    (builder.callTool invocation action).Asks Request.IsBuildStep :=
  (builder.asks_callTool invocation action).mono fun _ kind => by
    rcases kind with ⟨event, rfl⟩ | rfl <;> trivial

theorem asks_buildDirect (builder : Builder) (job : Job) :
    (builder.buildDirect job).Asks Request.IsBuildStep := by
  refine .bind (Scratch.asks_sourceFile _ _).isBuildStep fun source => ?_
  refine .thenDiscard ?_ _ (by simp [Request.IsBuildStep])
  refine .bind (Scratch.asks_newFile _ _).isBuildStep fun archive => ?_
  refine .bind (.onFailure ?_ _ (by simp [Request.IsBuildStep])) fun _ => .pure _ _
  exact .bind (asks_report _ _).isBuildStep fun _ => isBuildStep_callTool _ _ _

theorem asks_buildIn (builder : Builder) (job : Job) (manifest : String) (work : WorkDirectory) :
    (builder.buildIn job manifest work).Asks Request.IsBuildStep := by
  refine .bind (asks_writeFile _ _).isBuildStep fun _ => ?_
  refine .bind (asks_writeFile _ _).isBuildStep fun _ => ?_
  refine .bind (asks_report _ _).isBuildStep fun _ => ?_
  refine .bind (asks_report _ _).isBuildStep fun _ => ?_
  refine .bind (isBuildStep_callTool _ _ _) fun _ => ?_
  refine .bind (Scratch.asks_relocate _ _).isBuildStep fun archive => ?_
  exact .bind (asks_report _ _).isBuildStep fun _ => .pure _ _

theorem asks_build (builder : Builder) (job : Job) :
    (builder.build job).Asks Request.IsWork := by
  refine .bind (asks_report _ _).isLocal.isWork fun _ => ?_
  cases job.manifest with
  | none =>
    exact (builder.asks_buildDirect job).mono fun _ => Request.IsBuildStep.isWork
  | some manifest =>
    refine .bind (WorkDirectory.asks_make _ _ _).isScratch.isLocal.isWork fun work => ?_
    refine .bind (.onFailure ((builder.asks_buildIn job manifest work).mono
      fun _ => Request.IsBuildStep.isWork) _ fun request member =>
        (work.isLocal_givenUp request member).isWork) fun archive => ?_
    exact .bind work.asks_remove.isWork fun _ => .pure _ _

end Builder

namespace Compilation

theorem asks_building (settings : Settings) (builder : Builder) (unit : String)
    (state : UnitState) : (building settings builder unit state).Asks Request.IsWork := by
  refine .bind (Builder.asks_report _ _).isLocal.isWork fun _ => ?_
  refine .bind (.orInaccessible _ (.request _ trivial)) fun workRoot => ?_
  exact .bind (Builder.asks_report _ _).isLocal.isWork fun _ =>
    builder.asks_build _

/-- A unit that cannot be finished is not handed to the linker. -/
theorem finishing_unlinked (world : World) (settings : Settings) (builder : Builder)
    (unit : String) (state : UnitState) (archive : Path)
    (failed : (world.exec (finishing settings builder unit state)).1 = .error cause) :
    .link archive ∉ world.asked (finishing settings builder unit state) := by
  rw [finishing_eq, World.exec_bind] at failed
  rw [finishing_eq, World.asked_bind]
  rcases ended : world.exec (building settings builder unit state) with ⟨cause | built, after⟩
  · rw [List.append_nil]
    exact fun member =>
      (asks_building settings builder unit state).mem_requests world member
  · obtain ⟨events, handed⟩ := exec_handing after builder unit built
    rw [ended] at failed
    dsimp only at failed
    rw [handed] at failed
    cases failed

end Compilation

end FragmentBuild
