import FragmentBuild.Proofs.CallWords
import FragmentBuild.Proofs.FinishSteps

/-! What follows from a tool that cannot be started or does not succeed. The unit fails with
what the tool said, word for word, and nothing of the build is handed on. -/
namespace FragmentBuild

def Invocation.action (invocation : Invocation) : String :=
  if invocation.isPackageCall then "build" else "compilation"

namespace World

variable {world after : World}

/-- A build calls no tool, or it calls one and fails as the tool does. -/
theorem build_failed (builder : Builder) (job : Job)
    (ran : world.exec (builder.build job) = (result, after)) :
    SameRecords world after ∨
      ∃ invocation machine, Called world after invocation machine ∧
        invocation.program = (if invocation.isPackageCall
          then builder.settings.toolchain.packageTool
          else builder.settings.toolchain.compiler) ∧
        ∀ failure, verdict invocation.program invocation.action
            (world.tool invocation machine).1 = .error failure →
          result = .error failure ∧ (invocation.isPackageCall = false →
            after.machine.isFile (ScriptedTool.archivePath invocation) = false) := by
  obtain ⟨events, ran⟩ := exec_build builder job ran
  have untouched := sameRecords_events world events
  cases described : job.manifest with
  | none =>
    rw [described] at ran
    rcases buildDirect_cases builder job ran with
      ⟨-, same⟩ | ⟨source, archive, machine, files, call, ends⟩
    · exact .inl (untouched.trans same)
    · refine .inr ⟨_, machine, call.ofLocal untouched, rfl, fun failure decided => ?_⟩
      obtain ⟨failed, noFile⟩ := ends.failed failure decided
      refine ⟨failed, fun _ => ?_⟩
      rw [Builder.callFor, Builder.archivePath_compilerCall]
      exact noFile
  | some manifest =>
    rw [described] at ran
    rcases buildPackage_cases builder job manifest ran with
      ⟨-, same⟩ | ⟨work, machine, files, call, ends⟩
    · exact .inl (untouched.trans same)
    · have package : (builder.callIn job work).isPackageCall = true :=
        Builder.isPackageCall_packageCall ..
      refine .inr ⟨_, machine, call.ofLocal untouched, ?_, fun failure decided => ?_⟩
      · rw [if_pos package]; rfl
      · rw [Invocation.action, if_pos package] at decided
        exact ⟨ends.failed failure decided, fun direct => by rw [package] at direct; cases direct⟩

end World

/-- The step that finishes a unit has handed nothing to the linker, and a call of the compiler
has left no file where its archive was to be. -/
structure LeavesNothing (world after : World) (run : Run) (unit : String)
    (invocation : Invocation) : Prop where
  plan : after.plan = world.plan
  requests : ∀ archive, .link archive ∉ world.requests (run.perform (.finish unit))
  noFile : invocation.isPackageCall = false →
    after.machine.isFile (ScriptedTool.archivePath invocation) = false

/-- Finishing a unit calls a tool at most once, and a failure of the tool ends it: the reply
is the failure with the tool's own diagnostics, and nothing is linked. -/
theorem tool_failure_ends_unit (reachable : Run.Reachable settings policy run)
    (world : World) (unit : String)
    (ran : world.run (run.perform (.finish unit)) = ((reply, next), after))
    (reached : after.calls ≠ world.calls) :
    ∃ invocation machine, after.calls = world.calls ++ [(invocation, machine)] ∧
      invocation.program = (if invocation.isPackageCall then settings.toolchain.packageTool
        else settings.toolchain.compiler) ∧
      (∀ cause, (world.tool invocation machine).1 = .error cause →
        reply = .failed (.notStarted invocation.program cause) ∧
          LeavesNothing world after run unit invocation) ∧
      (∀ report, (world.tool invocation machine).1 = .ok report → report.success = false →
        ∃ failure, reply = .failed failure ∧
          failure = .toolFailed invocation.program invocation.action report.diagnostics ∧
          failure.message = invocation.program ++ " " ++ invocation.action ++ " failed:\n" ++
            report.diagnostics ∧
          LeavesNothing world after run unit invocation) := by
  obtain ⟨view, tracks⟩ := reachable.tracks unit
  have outcome := Run.perform_finish_cases world run tracks
  rw [ran] at outcome
  obtain same | ⟨calls, state, workRoot, result, built, -, build, ends⟩ := outcome
  · exact absurd same reached
  obtain ⟨events, building⟩ := build.ran
  rcases World.build_failed run.compilation.builder _ building with
    same | ⟨invocation, machine, call, program, fails⟩
  · exact absurd (build.calls.trans same.calls) reached
  rw [reachable.keepsSettings.2] at program
  have ended (failure : Failure) (decided : verdict invocation.program invocation.action
      (world.tool invocation machine).1 = .error failure) :
      reply = .failed failure ∧ LeavesNothing world after run unit invocation := by
    obtain ⟨failed, noFile⟩ := fails failure decided
    obtain ⟨replied, rfl, unlinked⟩ := ends failure failed
    exact ⟨replied, call.plan, unlinked, noFile⟩
  refine ⟨invocation, machine, build.calls.trans call.calls, program, fun cause refused => ?_,
    fun report exited failed => ?_⟩
  · exact ended _ (by rw [refused]; rfl)
  · have decided : verdict invocation.program invocation.action
        (world.tool invocation machine).1 =
          .error (.toolFailed invocation.program invocation.action report.diagnostics) := by
      rw [exited, verdict, if_neg (by simp [failed])]
    exact ⟨_, (ended _ decided).1, rfl, rfl, (ended _ decided).2⟩

/-- A run with one open unit of one fragment. -/
def Run.small : Run :=
  (((World.small ScriptedTool.idle.tool).run (Run.start (.small .unique) .empty)).1.along
    [(.small ScriptedTool.idle.tool, .openUnit "u"),
      (.small ScriptedTool.idle.tool, .call "u" (.fragment "fn f() {}"))]).2

/-- A compiler writes part of an archive and is ended by a signal. -/
theorem tool_failure_ends_unit_partial_archive :
    ∃ reply next after invocation,
      (World.small (ScriptedTool.partialArchive "no").tool).run
        (Run.small.perform (.finish "u")) = ((reply, next), after) ∧
      reply = .failed (.toolFailed invocation.program invocation.action "no") ∧
      LeavesNothing (.small (ScriptedTool.partialArchive "no").tool) after Run.small "u"
        invocation := by
  rcases ran : (World.small (ScriptedTool.partialArchive "no").tool).run
    (Run.small.perform (.finish "u")) with ⟨⟨reply, next⟩, after⟩
  have once : ((World.small (ScriptedTool.partialArchive "no").tool).run
      (Run.small.perform (.finish "u"))).2.calls.length = 1 := by decide +kernel
  have reached : after.calls ≠ (World.small (ScriptedTool.partialArchive "no").tool).calls := by
    intro same
    rw [ran, same] at once
    cases once
  obtain ⟨invocation, machine, -, -, -, fails⟩ :=
    tool_failure_ends_unit ⟨_, _, rfl⟩ _ "u" ran reached
  obtain ⟨failure, replied, same, -, nothing⟩ := fails (.failed none "no") rfl rfl
  exact ⟨reply, next, after, invocation, rfl, same ▸ replied, nothing⟩

end FragmentBuild
