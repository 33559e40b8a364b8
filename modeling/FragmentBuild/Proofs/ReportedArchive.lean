import FragmentBuild.Proofs.CallWords
import FragmentBuild.Proofs.Finishing

/-! Whether an archive that a build reports is there. A package build looks for it and moves
it away; it is lost all the same if the way to its new place leads through the directory that
is removed. A call of the compiler is believed without a look. -/
namespace FragmentBuild

/-- Where following a path starts. -/
def Machine.start (machine : Machine) (path : Path) : Location :=
  if path.isAbsolute then [] else machine.working.getD []

/-- Whether a path from the root down leads through something, or to something, that goes with
the directory `work`. -/
def Machine.LosesWith (machine : Machine) (work path : Path) : Prop :=
  ∃ location ∈ path.trail [],
    Taken (work.trail (machine.start work))
      (destination (machine.start work) (pieces work.text.toList)) location

/-- What a build that reports its archive at a path promises, where `left` is the machine as
the tool left it and `told` the path the tool was told to write: the archive is there, and no
archive is reported unless the tool left one. -/
def KeepsPromise (left after : Machine) (told : Path) (result : Except Failure Path) : Prop :=
  (∀ archive, result = .ok archive → after.isFile archive = true) ∧
    (left.isFile told = false → result = .error (.archiveMissing told))

/-- An archive that was handed on is found afterwards exactly if the way to it did not go with
the working directory. -/
theorem PackageEnd.isFile_iff {decided : Except Failure Unit} {left after machine : Machine}
    (ends : PackageEnd decided left after work (Builder.toldIn work) (.ok archive))
    (passed : decided = .ok ()) (noLink : ¬ left.IsLink (Builder.toldIn work))
    (kept : ∀ here, left.working = some here → machine.working = some here) :
    after.isFile archive = true ↔ ¬ machine.LosesWith work.path archive := by
  obtain ⟨isFile, moved, disk, handed, removed, rfl⟩ := ends.handedOn passed
  obtain ⟨location, goal, contents, executable, -, found⟩ := handed.same noLink
  obtain ⟨start, root, begun, -, rfl, gone⟩ := handed.removeTree_eq_ok isFile removed
  have begins : machine.start work.path = start := by
    rw [Machine.start]
    cases absolute : work.path.isAbsolute with
    | true => exact (Machine.origin_absolute begun absolute).symm
    | false =>
      have working := Machine.origin_relative begun absolute
      rw [kept start (handed.stays start working)]
      rfl
  rw [Machine.isFile_removed_iff handed.absolute found gone, Machine.LosesWith, begins]
  simp

theorem DirectEnd.keepsPromise_iff {decided : Except Failure Unit} {left after : Machine}
    (ends : DirectEnd decided left after archive result) (passed : decided = .ok ())
    (noLink : ¬ left.IsLink archive) :
    KeepsPromise left after archive result ↔ left.isFile archive = true := by
  obtain ⟨rfl, kept⟩ := ends.built passed
  have same := kept noLink
  constructor
  · intro promise
    exact same.symm.trans (promise.1 archive rfl)
  · intro isFile
    refine ⟨fun _ reported => ?_, fun noFile => ?_⟩
    · cases reported
      exact same.trans isFile
    · rw [isFile] at noFile
      cases noFile

theorem PackageEnd.keepsPromise_iff {decided : Except Failure Unit}
    {left after machine : Machine}
    (ends : PackageEnd decided left after work (Builder.toldIn work) result)
    (passed : decided = .ok ()) (noLink : ¬ left.IsLink (Builder.toldIn work))
    (kept : ∀ here, left.working = some here → machine.working = some here) :
    KeepsPromise left after (Builder.toldIn work) result ↔
      ∀ archive, result = .ok archive → ¬ machine.LosesWith work.path archive := by
  constructor
  · rintro promise archive rfl
    exact (ends.isFile_iff passed noLink kept).mp (promise.1 archive rfl)
  · intro stays
    refine ⟨?_, ends.missing passed⟩
    rintro archive rfl
    exact (ends.isFile_iff passed noLink kept).mpr (stays archive rfl)

/-- Of a build whose tool has succeeded and has left no link in place of its archive, the promise
is kept exactly under these conditions: the compiler left a regular file where it was told to, or
the way to the archive of a package build does not lead through its working directory. -/
theorem archive_promise_iff {world after : World} {machine : Machine} {report : Report}
    (builder : Builder) (job : Job)
    (ran : world.exec (builder.build job) = (result, after))
    (called : after.calls = world.calls ++ [(invocation, machine)])
    (answered : (world.tool invocation machine).1 = .ok report)
    (success : report.success = true)
    (noLink : ¬ (world.tool.leaves invocation machine).IsLink
      (ScriptedTool.archivePath invocation)) :
    (job.manifest = none →
      (KeepsPromise (world.tool.leaves invocation machine) after.machine
          (ScriptedTool.archivePath invocation) result ↔
        (world.tool.leaves invocation machine).isFile
          (ScriptedTool.archivePath invocation) = true)) ∧
    (job.manifest ≠ none →
      ∃ work : Path,
        ScriptedTool.archivePath invocation = Builder.builtArchive (work.child "target") ∧
        (KeepsPromise (world.tool.leaves invocation machine) after.machine
            (ScriptedTool.archivePath invocation) result ↔
          ∀ archive, result = .ok archive → ¬ machine.LosesWith work archive)) := by
  obtain ⟨events, ran⟩ := World.exec_build builder job ran
  have passed (program action : String) :
      verdict program action (world.tool invocation machine).1 = .ok () := by
    rw [answered, verdict, if_pos success]
  cases described : job.manifest with
  | none =>
    refine ⟨fun _ => ?_, fun impossible => absurd rfl impossible⟩
    rw [described] at ran
    rcases World.buildDirect_cases builder job ran with
      ⟨-, same⟩ | ⟨source, archive, machine, files, call, ends⟩
    · exact (same.not_called called).elim
    obtain ⟨rfl, rfl⟩ := call.same called
    have told : ScriptedTool.archivePath (builder.callFor job source archive) = archive :=
      Builder.archivePath_compilerCall ..
    rw [told] at noLink ⊢
    exact ends.keepsPromise_iff (passed _ _) noLink
  | some manifest =>
    refine ⟨nofun, fun _ => ?_⟩
    rw [described] at ran
    rcases World.buildPackage_cases builder job manifest ran with
      ⟨-, same⟩ | ⟨work, machine, files, call, ends⟩
    · exact (same.not_called called).elim
    obtain ⟨rfl, rfl⟩ := call.same called
    have told : ScriptedTool.archivePath (builder.callIn job work) = Builder.toldIn work :=
      Builder.archivePath_packageCall ..
    refine ⟨work.path, told, ?_⟩
    rw [told] at noLink ⊢
    exact ends.keepsPromise_iff (passed _ _) noLink fun _ => World.working_filter

/-- A unit without dependencies. -/
def Job.small : Job where
  source := ""
  manifest := none
  extraArguments := []
  workRoot := ⟨"/w"⟩

/-- A unit with a dependency. -/
def Job.package : Job := { Job.small with manifest := some "" }

def Builder.small (mode : WorkMode) : Builder where
  settings := .small mode
  scratch := ⟨⟨"/t"⟩⟩

/-- A builder that puts reported archives into its own working directory. -/
def Builder.nested : Builder where
  settings := .small .fixed
  scratch := ⟨⟨"/w/.graft-quasiquote"⟩⟩

/-- The directory that is removed holds the place of reported archives. -/
theorem Builder.nested_loses :
    let ran := (World.small (ScriptedTool.archive .empty).tool).exec (nested.build .package)
    ran.1 = .ok ⟨"/w/.graft-quasiquote/graft-aaaaaa.a"⟩ ∧ ran.2.calls.length = 1 ∧
      (∀ call ∈ ran.2.calls, ¬ ((ScriptedTool.archive .empty).tool.leaves call.1 call.2).IsLink
        (ScriptedTool.archivePath call.1)) ∧
      ran.2.machine.isFile ⟨"/w/.graft-quasiquote/graft-aaaaaa.a"⟩ = false := by
  decide +kernel

/-- A package tool that succeeds and leaves its archive: the build reports an archive that it has
removed with the working directory. -/
theorem archive_promise_broken_by_removal :
    ∃ archive after invocation machine,
      (World.small (ScriptedTool.archive .empty).tool).exec (Builder.nested.build .package) =
        (.ok archive, after) ∧
      after.calls = [(invocation, machine)] ∧
      ((ScriptedTool.archive .empty).tool invocation machine).1 = .ok .succeeded ∧
      ¬ KeepsPromise ((ScriptedTool.archive .empty).tool.leaves invocation machine) after.machine
        (ScriptedTool.archivePath invocation) (.ok archive) := by
  obtain ⟨reported, once, -, missing⟩ := Builder.nested_loses
  rcases ran : (World.small (ScriptedTool.archive .empty).tool).exec
    (Builder.nested.build .package) with ⟨result, after⟩
  rw [ran] at reported once missing
  obtain rfl : result = .ok ⟨"/w/.graft-quasiquote/graft-aaaaaa.a"⟩ := reported
  obtain ⟨⟨invocation, machine⟩, called⟩ := List.length_eq_one_iff.mp once
  refine ⟨_, after, invocation, machine, rfl, called, rfl, fun promise => ?_⟩
  have present := promise.1 _ rfl
  rw [missing] at present
  cases present

/-- The theorem on a compiler that leaves the placeholder alone, and on a package tool whose
archive is moved to a place in the working directory. -/
theorem archive_promise_iff_idle :
    (∃ archive after invocation machine,
      (World.small ScriptedTool.idle.tool).exec ((Builder.small .unique).build .small) =
        (.ok archive, after) ∧
      (KeepsPromise (ScriptedTool.idle.tool.leaves invocation machine) after.machine
          (ScriptedTool.archivePath invocation) (.ok archive) ↔
        (ScriptedTool.idle.tool.leaves invocation machine).isFile
          (ScriptedTool.archivePath invocation) = true)) ∧
    ∃ result after invocation machine work,
      (World.small (ScriptedTool.archive .empty).tool).exec (Builder.nested.build .package) =
        (result, after) ∧
      (KeepsPromise ((ScriptedTool.archive .empty).tool.leaves invocation machine) after.machine
          (ScriptedTool.archivePath invocation) result ↔
        ∀ archive, result = .ok archive → ¬ machine.LosesWith work archive) := by
  have facts : ((World.small ScriptedTool.idle.tool).exec
        ((Builder.small .unique).build .small)).1 = .ok ⟨"/t/graft-aaaaab.a"⟩ ∧
      ((World.small ScriptedTool.idle.tool).exec
        ((Builder.small .unique).build .small)).2.calls.length = 1 ∧
      ∀ call ∈ ((World.small ScriptedTool.idle.tool).exec
        ((Builder.small .unique).build .small)).2.calls,
        ¬ (ScriptedTool.idle.tool.leaves call.1 call.2).IsLink
          (ScriptedTool.archivePath call.1) := by decide +kernel
  constructor
  · rcases ran : (World.small ScriptedTool.idle.tool).exec
      ((Builder.small .unique).build .small) with ⟨result, after⟩
    rw [ran] at facts
    obtain ⟨reported, once, plain⟩ := facts
    obtain rfl : result = .ok ⟨"/t/graft-aaaaab.a"⟩ := reported
    obtain ⟨⟨invocation, machine⟩, called⟩ := List.length_eq_one_iff.mp once
    have noLink : ¬ (ScriptedTool.idle.tool.leaves invocation machine).IsLink
        (ScriptedTool.archivePath invocation) :=
      plain (invocation, machine) (by rw [called]; exact List.mem_singleton_self _)
    exact ⟨_, after, invocation, machine, rfl,
      (archive_promise_iff (Builder.small .unique) .small ran called rfl rfl noLink).1 rfl⟩
  · obtain ⟨-, once, plain, -⟩ := Builder.nested_loses
    rcases ran : (World.small (ScriptedTool.archive .empty).tool).exec
      (Builder.nested.build .package) with ⟨result, after⟩
    rw [ran] at once plain
    obtain ⟨⟨invocation, machine⟩, called⟩ := List.length_eq_one_iff.mp once
    have noLink : ¬ ((ScriptedTool.archive .empty).tool.leaves invocation machine).IsLink
        (ScriptedTool.archivePath invocation) :=
      plain (invocation, machine) (by rw [called]; exact List.mem_singleton_self _)
    obtain ⟨work, -, kept⟩ :=
      (archive_promise_iff Builder.nested .package ran called rfl rfl noLink).2 nofun
    exact ⟨result, after, invocation, machine, work, rfl, kept⟩

end FragmentBuild
