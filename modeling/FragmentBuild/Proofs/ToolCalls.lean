import FragmentBuild.Proofs.LocalRequests

/-! Calling a tool. The answer of the tool decides whether a build goes on; whatever the tool
did to the disk stays. -/
namespace FragmentBuild

/-- What a tool's answer means for the build that called it. -/
def verdict (program action : String) : Except SystemError Report → Except Failure Unit
  | .error cause => .error (.notStarted program cause)
  | .ok report =>
    if report.success then .ok () else .error (.toolFailed program action report.diagnostics)

/-- The machine as a tool leaves it. -/
def Tool.leaves (tool : Tool) (invocation : Invocation) (machine : Machine) : Machine :=
  machine.withDisk (tool invocation machine).2

namespace World

/-- Between two worlds the tool was called once, and nothing was handed to the linker. -/
structure Called (before after : World) (invocation : Invocation) (machine : Machine) :
    Prop where
  tool : after.tool = before.tool
  calls : after.calls = before.calls ++ [(invocation, machine)]
  plan : after.plan = before.plan

variable {machine : Machine}

theorem Called.ofLocal (called : Called middle after invocation machine)
    (same : SameRecords before middle) : Called before after invocation machine where
  tool := called.tool.trans same.tool
  calls := by rw [called.calls, same.calls]
  plan := called.plan.trans same.plan

theorem Called.thenLocal (called : Called before middle invocation machine)
    (same : SameRecords middle after) : Called before after invocation machine where
  tool := same.tool.trans called.tool
  calls := by rw [same.calls, called.calls]
  plan := same.plan.trans called.plan

theorem Called.same (call : Called before after invocation machine)
    (called : after.calls = before.calls ++ [(other, found)]) :
    invocation = other ∧ machine = found := by
  have last := List.append_cancel_left (call.calls.symm.trans called)
  exact Prod.mk.inj (List.singleton_inj.mp last)

theorem SameRecords.not_called (same : SameRecords before after)
    (called : after.calls = before.calls ++ [(other, found)]) : False := by
  have none := same.calls.symm.trans called
  simp at none

/-- A tool is called on the machine as it stands, and its answer is the end of the call. -/
theorem callTool_cases {world after : World} (builder : Builder)
    (ran : world.exec (builder.callTool invocation action) = (result, after)) :
    result = verdict invocation.program action (world.tool invocation world.machine).1 ∧
      Called world after invocation world.machine ∧
      after.machine = world.tool.leaves invocation world.machine := by
  rw [Builder.callTool] at ran
  obtain ⟨events, ran⟩ := exec_report_bind ran
  rw [exec_request_bind] at ran
  dsimp only [answer] at ran
  cases answered : (world.tool invocation world.machine).1 with
  | error cause =>
    rw [answered] at ran
    cases ran
    exact ⟨rfl, ⟨rfl, rfl, rfl⟩, rfl⟩
  | ok report =>
    rw [answered] at ran
    dsimp only at ran
    cases success : report.success with
    | true =>
      rw [if_neg (by simp [success])] at ran
      cases ran
      exact ⟨(if_pos success).symm, ⟨rfl, rfl, rfl⟩, rfl⟩
    | false =>
      rw [if_pos (by simp [success])] at ran
      obtain ⟨later, ran⟩ := exec_report_bind ran
      cases ran
      exact ⟨(if_neg (by simp [success])).symm, ⟨rfl, rfl, rfl⟩, rfl⟩

end World

end FragmentBuild
