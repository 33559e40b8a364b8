import FragmentBuild.Proofs.ReportedArchive

/-! Whose archive a package build hands on. Builds follow each other on one disk, with tools
that may leave archives behind and fail. A working directory of its own is empty of them; one
that is shared keeps them, and what stands there is taken for the result. -/
namespace FragmentBuild

namespace ScriptedTool

theorem withFile_isTree (machine : Machine) (path : Path) (contents : ByteArray)
    (tree : machine.disk.IsTree) : (withFile machine path contents).IsTree := by
  have prepared := tree.makeDirectories machine.working (parentOf path)
  rw [withFile]
  split
  · rename_i disk written
    exact prepared.write written
  · exact prepared

theorem withDirectory_isTree (machine : Machine) (path : Path) (tree : machine.disk.IsTree) :
    (withDirectory machine path).IsTree := by
  rw [withDirectory]
  refine Disk.IsTree.makeDirectories ?_ machine.working path
  split
  · rename_i disk removed
    exact tree.removeFile removed
  · exact tree

theorem withLink_isTree (machine : Machine) (path : Path) (contents : ByteArray)
    (tree : machine.disk.IsTree) : (withLink machine path contents).IsTree := by
  have written := withFile_isTree machine ((parentOf path).child linkedName) contents tree
  rw [withLink]
  split
  · rename_i disk made
    exact written.makeLink made
  · exact written

theorem keepsTree (script : ScriptedTool) : Tool.KeepsTree script.tool := by
  intro invocation machine tree
  cases script with
  | archive contents => exact withFile_isTree machine _ contents tree
  | partialArchive diagnostics => exact withFile_isTree machine _ _ tree
  | archiveDirectory => exact withDirectory_isTree machine _ tree
  | linkedArchive contents => exact withLink_isTree machine _ contents tree
  | _ => exact tree

end ScriptedTool

/-- A build in a sequence of builds. -/
structure Build where
  before : World
  job : Job
  result : Except Failure Path
  after : World

namespace Builder

def round (builder : Builder) (world : World) (job : Job) : Build where
  before := world
  job := job
  result := (world.exec (builder.build job)).1
  after := (world.exec (builder.build job)).2

theorem round_ran (builder : Builder) (world : World) (job : Job) :
    world.exec (builder.build job) =
      ((builder.round world job).result, (builder.round world job).after) := rfl

theorem round_called (builder : Builder) (world : World) (job : Job)
    (more : (builder.round world job).after.calls.length ≠
      (builder.round world job).before.calls.length) :
    ∃ invocation machine, (builder.round world job).after.calls =
      (builder.round world job).before.calls ++ [(invocation, machine)] := by
  rcases World.build_called builder job (builder.round_ran world job) with
    same | ⟨invocation, machine, call⟩
  · exact absurd (congrArg List.length same.calls) more
  · exact ⟨invocation, machine, call.calls⟩

/-- Builds one job after the other on what the builds before have left, each with a tool of
its own. -/
def buildEach (builder : Builder) (world : World) : List (Tool × Job) → List Build
  | [] => []
  | (tool, job) :: rest =>
    let one := builder.round { world with tool } job
    one :: builder.buildEach one.after rest

theorem buildEach_ran {one : Build} (builder : Builder) (rounds : List (Tool × Job))
    (member : one ∈ builder.buildEach world rounds) :
    one.before.exec (builder.build one.job) = (one.result, one.after) := by
  induction rounds generalizing world with
  | nil => cases member
  | cons round rest ih =>
    rcases List.mem_cons.mp member with rfl | later
    · rfl
    · exact ih later

theorem buildEach_isTree {one : Build} (builder : Builder) (rounds : List (Tool × Job))
    (tree : world.machine.disk.IsTree) (sane : ∀ round ∈ rounds, Tool.KeepsTree round.1)
    (member : one ∈ builder.buildEach world rounds) : one.before.machine.disk.IsTree := by
  induction rounds generalizing world with
  | nil => cases member
  | cons round rest ih =>
    obtain ⟨tool, job⟩ := round
    rcases List.mem_cons.mp member with rfl | later
    · exact tree
    · refine ih ?_ (fun other within => sane other (List.mem_cons_of_mem _ within)) later
      exact World.run_isTree { world with tool } _ (sane _ List.mem_cons_self) tree

end Builder

/-- A path leads to the same regular file on both machines. What counts is what is found there: a
file that was written once more with the bytes that it had is the same. -/
def SameFile (before after : Machine) (path : Path) : Prop :=
  ∃ location contents executable,
    before.reach path = .ok (location, .file contents executable) ∧
      after.reach path = .ok (location, .file contents executable)

/-- What a package build owes its caller, where `machine` is the machine the tool was called
on, `left` the machine as the tool left it and `told` the path the tool was told to write: a
tool that neither made nor changed a file there has left no archive, and an archive that is
reported has the bytes that this tool has put there. A link that the tool has left is reported as
it is. -/
structure OwnArchive (machine left after : Machine) (told : Path)
    (result : Except Failure Path) : Prop where
  missing : (left.isFile told = true → SameFile machine left told) →
    result = .error (.archiveMissing told)
  own : ∀ archive, result = .ok archive → ¬ SameFile machine left told ∧
    (¬ left.IsLink told →
      ∀ contents, after.read archive = .ok contents → left.read told = .ok contents)

theorem PackageEnd.ownArchive_iff {decided : Except Failure Unit} {left after : Machine}
    (machine : Machine) (ends : PackageEnd decided left after work (Builder.toldIn work) result)
    (passed : decided = .ok ()) :
    OwnArchive machine left after (Builder.toldIn work) result ↔
      ¬ SameFile machine left (Builder.toldIn work) := by
  constructor
  · rintro owned ⟨location, contents, executable, found, stays⟩
    have isFile : left.isFile (Builder.toldIn work) = true :=
      (Machine.isFile_iff ..).mpr ⟨_, _, _, stays⟩
    have missing := owned.missing fun _ => ⟨location, contents, executable, found, stays⟩
    rcases ends.present passed isFile with
      ⟨path, cause, refused⟩ | ⟨archive, moved, disk, reported, -⟩
    · rw [missing] at refused; cases refused
    · rw [missing] at reported; cases reported
  · intro changed
    refine ⟨fun untouched => ?_, ?_⟩
    · refine ends.missing passed ?_
      by_contra isFile
      exact changed (untouched (by simpa using isFile))
    · rintro archive rfl
      refine ⟨changed, fun noLink contents read => ?_⟩
      obtain ⟨isFile, moved, disk, handed, removed, rfl⟩ := ends.handedOn passed
      obtain ⟨location, goal, bytes, executable, held, found⟩ := handed.same noLink
      obtain ⟨start, root, -, -, -, gone⟩ := handed.removeTree_eq_ok isFile removed
      obtain ⟨place, entry, there, whole⟩ := Disk.reach_of_read read
      have stood := Machine.reach_of_taken (fun other thing stands => by
        rw [gone] at stands
        split at stands
        · cases stands
        · exact stands) there
      cases (Machine.reach_of_find found).symm.trans stood
      rw [← whole bytes executable rfl]
      exact Disk.read_of_reach (Machine.reach_of_find held)

/-- In every sequence of builds a package build whose tool has succeeded hands on what this
tool has made, unless it finds a file of an earlier build that the tool has left as it was. A
working directory of its own holds no such file. -/
theorem own_archive_iff {world : World} {machine : Machine} {report : Report} {one : Build}
    (builder : Builder) (rounds : List (Tool × Job))
    (member : one ∈ builder.buildEach world rounds) (package : one.job.manifest ≠ none)
    (called : one.after.calls = one.before.calls ++ [(invocation, machine)])
    (answered : (one.before.tool invocation machine).1 = .ok report)
    (success : report.success = true) :
    (OwnArchive machine (one.before.tool.leaves invocation machine) one.after.machine
        (ScriptedTool.archivePath invocation) one.result ↔
      ¬ SameFile machine (one.before.tool.leaves invocation machine)
        (ScriptedTool.archivePath invocation)) ∧
    (world.machine.disk.IsTree → (∀ round ∈ rounds, Tool.KeepsTree round.1) →
      builder.settings.toolchain.workMode = .unique →
      ¬ SameFile machine (one.before.tool.leaves invocation machine)
        (ScriptedTool.archivePath invocation)) := by
  obtain ⟨events, ran⟩ := World.exec_build builder one.job (builder.buildEach_ran rounds member)
  obtain ⟨manifest, described⟩ := Option.ne_none_iff_exists'.mp package
  rw [described] at ran
  rcases World.buildPackage_cases builder one.job manifest ran with
    ⟨-, same⟩ | ⟨work, machine, files, call, ends⟩
  · exact (same.not_called called).elim
  obtain ⟨rfl, rfl⟩ := call.same called
  have told : ScriptedTool.archivePath (builder.callIn one.job work) = Builder.toldIn work :=
    Builder.archivePath_packageCall ..
  have passed : verdict builder.settings.toolchain.packageTool "build"
      (one.before.tool (builder.callIn one.job work) machine).1 = .ok () := by
    rw [answered, verdict, if_pos success]
  rw [told]
  refine ⟨ends.ownArchive_iff machine passed, fun tree sane unique same => ?_⟩
  obtain ⟨location, contents, executable, found, -⟩ := same
  have stands : machine.isFile (Builder.toldIn work) = true :=
    (Machine.isFile_iff ..).mpr ⟨_, _, _, found⟩
  have fresh : machine.isFile (Builder.toldIn work) = false :=
    files.fresh unique (builder.buildEach_isTree rounds tree sane member)
  rw [fresh] at stands
  cases stands

/-- A build whose tool writes part of an archive and fails, and a second build whose tool does
nothing. -/
def Build.afterFailure (mode : WorkMode) : List Build :=
  (Builder.small mode).buildEach (.small ScriptedTool.idle.tool)
    [((ScriptedTool.partialArchive "no").tool, .package), (ScriptedTool.idle.tool, .package)]

def World.failed (mode : WorkMode) : World :=
  ((Builder.small mode).round (.small (ScriptedTool.partialArchive "no").tool) .package).after

def Build.second (mode : WorkMode) : Build :=
  (Builder.small mode).round { World.failed mode with tool := ScriptedTool.idle.tool } .package

theorem Build.second_mem (mode : WorkMode) : second mode ∈ afterFailure mode :=
  List.mem_cons_of_mem _ List.mem_cons_self

theorem Build.second_stale :
    (second .fixed).after.calls.length ≠ (second .fixed).before.calls.length ∧
      ((second .fixed).after.calls.getLast?.map fun call =>
        call.2.isFile (ScriptedTool.archivePath call.1)) = some true ∧
      (second .fixed).result.toOption.isSome = true := by
  decide +kernel

theorem Build.second_called (mode : WorkMode) : ∃ invocation machine,
    (second mode).after.calls = (second mode).before.calls ++ [(invocation, machine)] := by
  have more : (second mode).after.calls.length ≠ (second mode).before.calls.length := by
    cases mode with
    | fixed => exact second_stale.1
    | unique => decide +kernel
  rw [second] at more ⊢
  exact Builder.round_called _ _ _ more

theorem sameFile_idle (machine : Machine)
    (isFile : machine.isFile path = true) :
    SameFile machine (ScriptedTool.idle.tool.leaves invocation machine) path := by
  obtain ⟨location, contents, executable, reached⟩ := (Machine.isFile_iff ..).mp isFile
  obtain ⟨leads, stands⟩ := (Machine.reach_eq_ok_iff ..).mp reached
  refine ⟨location, contents, executable, reached, (Machine.reach_eq_ok_iff ..).mpr ⟨?_, stands⟩⟩
  exact Machine.aim_filter leads

/-- The tool of the second build succeeds without making an archive, and the build reports
one. -/
theorem own_archive_broken_by_earlier_build :
    ∃ one ∈ Build.afterFailure .fixed, ∃ invocation machine archive,
      one.after.calls = one.before.calls ++ [(invocation, machine)] ∧
      (one.before.tool invocation machine).1 = .ok .succeeded ∧
      (one.before.tool invocation machine).2 = machine.disk ∧ one.result = .ok archive ∧
      ¬ OwnArchive machine (one.before.tool.leaves invocation machine) one.after.machine
        (ScriptedTool.archivePath invocation) one.result := by
  obtain ⟨invocation, machine, called⟩ := Build.second_called .fixed
  obtain ⟨-, stood, reported⟩ := Build.second_stale
  rw [called, List.getLast?_concat] at stood
  cases ended : (Build.second .fixed).result with
  | error failure => rw [ended] at reported; cases reported
  | ok archive =>
    refine ⟨_, Build.second_mem .fixed, invocation, machine, archive, called, rfl, rfl, ended,
      fun owned => ?_⟩
    have missing := owned.missing fun _ => sameFile_idle machine (Option.some.inj stood)
    rw [ended] at missing
    cases missing

/-- The theorem on the second build: in a shared directory it does hand on what stood there,
and in a directory of its own nothing stood there. -/
theorem own_archive_iff_after_failure :
    (∃ invocation machine,
      (OwnArchive machine (ScriptedTool.idle.tool.leaves invocation machine)
          (Build.second .fixed).after.machine (ScriptedTool.archivePath invocation)
          (Build.second .fixed).result ↔
        ¬ SameFile machine (ScriptedTool.idle.tool.leaves invocation machine)
          (ScriptedTool.archivePath invocation))) ∧
    ∃ invocation machine,
      (Build.second .unique).after.calls =
        (Build.second .unique).before.calls ++ [(invocation, machine)] ∧
      ¬ SameFile machine (ScriptedTool.idle.tool.leaves invocation machine)
        (ScriptedTool.archivePath invocation) := by
  obtain ⟨invocation, machine, called⟩ := Build.second_called .fixed
  obtain ⟨other, found, calledToo⟩ := Build.second_called .unique
  have tree : (World.small ScriptedTool.idle.tool).machine.disk.IsTree :=
    Disk.isTree_of_entries (by decide +kernel)
  have sane : ∀ round ∈ [((ScriptedTool.partialArchive "no").tool, Job.package),
      (ScriptedTool.idle.tool, Job.package)], Tool.KeepsTree round.1 := by
    intro round member
    rcases List.mem_cons.mp member with rfl | later
    · exact ScriptedTool.keepsTree _
    · obtain rfl := List.mem_singleton.mp later
      exact ScriptedTool.keepsTree _
  refine ⟨⟨invocation, machine, ?_⟩, other, found, calledToo, ?_⟩
  · exact (own_archive_iff (Builder.small .fixed) _ (Build.second_mem .fixed) nofun called
      rfl rfl).1
  · exact (own_archive_iff (Builder.small .unique) _ (Build.second_mem .unique) nofun calledToo
      rfl rfl).2 tree sane rfl

end FragmentBuild
