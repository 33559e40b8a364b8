import FragmentBuild.ScriptedTool
import FragmentBuild.Proofs.DiskTree
import FragmentBuild.Proofs.NamedPlaces
import FragmentBuild.Proofs.ToolCalls

/-! A package build: the source and the manifest are written into the working directory, over
whatever an earlier build left there, and the archive is moved away before the directory
goes. -/
namespace FragmentBuild

theorem isPlainName_source : Path.IsPlainName Manifest.sourceFileName :=
  ⟨by decide, by decide, by decide⟩

theorem isPlainName_manifest : Path.IsPlainName Manifest.fileName :=
  ⟨by decide, by decide, by decide⟩

theorem isPlainName_target : Path.IsPlainName "target" := ⟨by decide, by decide, by decide⟩

theorem isPlainName_release : Path.IsPlainName "release" := ⟨by decide, by decide, by decide⟩

theorem isPlainName_archive : Path.IsPlainName (archiveName Manifest.libraryName) :=
  ⟨by decide, by decide, by decide⟩

namespace Machine

variable {machine : Machine}

theorem locate_child {base : Path} (plain : Path.IsPlainName name)
    (leads : machine.locate (base.child name) = .ok location) :
    ∃ start, (base.isAbsolute = true → start = []) ∧
      location = destination start (pieces base.text.toList) ++ [name] := by
  obtain ⟨start, begun, followed⟩ := (locate_eq_ok_iff ..).mp leads
  refine ⟨start, fun absolute => ?_, ?_⟩
  · exact origin_absolute begun ((base.isAbsolute_child plain.plain).trans absolute)
  · rw [← ((Disk.walk_eq_ok_iff ..).mp followed).2.2, Path.destination_child start base plain]

end Machine

theorem Machine.aim_in_empty {machine : Machine} {work : Path} (absolute : work.isAbsolute = true)
    (leads : machine.locate work = .ok root)
    (empty : ∀ rest ≠ [], machine.disk.get? (root ++ rest) = none)
    (plain : Path.IsPlainName name) (aimed : machine.aim (work.child name) = .ok place) :
    place = root ++ [name] := by
  obtain ⟨here, there, followed⟩ := (Disk.aim_eq_ok_iff ..).mp aimed
  obtain ⟨start, atRoot, rfl⟩ := locate_child plain there
  rw [atRoot absolute, ← locate_of_absolute absolute leads] at followed
  have free : machine.disk.get? (root ++ [name]) = none := empty [name] (List.cons_ne_nil _ _)
  exact Except.ok.inj (followed.symm.trans (Disk.follow_of_not_link _ (by simp [free])))

theorem Builder.locate_builtArchive {machine : Machine} {work : Path}
    (absolute : work.isAbsolute = true)
    (leads : machine.locate (Builder.builtArchive (work.child "target")) = .ok location) :
    location = destination [] (pieces work.text.toList) ++ [("target" : OsText)] ++
      [("release" : OsText)] ++ [(archiveName Manifest.libraryName : OsText)] := by
  rw [builtArchive] at leads
  obtain ⟨start, atRoot, rfl⟩ := Machine.locate_child isPlainName_archive leads
  rw [atRoot, Path.destination_child _ _ isPlainName_release,
    Path.destination_child _ _ isPlainName_target]
  rw [Path.isAbsolute_child _ isPlainName_release.plain,
    Path.isAbsolute_child _ isPlainName_target.plain, absolute]

/-- A text that was written to the regular file, or in place of nothing, where a path and its
links lead. -/
structure Written (before after : Machine) (path : Path) (text : String)
    (location : Location) : Prop where
  leads : before.aim path = .ok location
  keeps : ∀ other place, before.locate other = .ok place → after.locate other = .ok place
  aims : ∀ other place, after.aim other = .ok place ↔ before.aim other = .ok place
  others : ∀ other, other ≠ location → after.disk.get? other = before.disk.get? other
  found : before.disk.get? location ≠ some .sink →
    ∃ executable, after.reach path = .ok (location, .file text.toUTF8 executable)

theorem written_of_write {machine : Machine}
    (wrote : machine.disk.write machine.working path text.toUTF8 = .ok disk) :
    ∃ location, Written machine (machine.withDisk disk) path text location := by
  obtain ⟨location, leads, kept⟩ := Disk.write_eq_ok wrote
  obtain ⟨_, -, followed⟩ := (Disk.aim_eq_ok_iff ..).mp leads
  have folders (folder : Location) : disk.get? folder = some .directory ↔
      machine.disk.get? folder = some .directory := by
    rcases kept with ⟨-, rfl⟩ | ⟨thing, executable, rfl⟩
    · rfl
    · exact Disk.directory_put_iff machine.disk folder thing (by simp)
  have others (other : Location) (apart : other ≠ location) :
      disk.get? other = machine.disk.get? other := by
    rcases kept with ⟨-, rfl⟩ | ⟨thing, executable, rfl⟩
    · rfl
    · exact Disk.get?_put_of_ne _ _ apart
  have stands (noSink : machine.disk.get? location ≠ some .sink) :
      ∃ executable, disk.get? location = some (.file text.toUTF8 executable) := by
    rcases kept with ⟨sink, -⟩ | ⟨thing, executable, rfl⟩
    · exact absurd sink noSink
    · exact ⟨executable, by
        rw [Disk.get?_put, if_neg (Disk.ne_root_of_not_directory machine.disk thing), if_pos rfl]⟩
  have links (other : Location) (target : Path) : disk.get? other = some (.link target) ↔
      machine.disk.get? other = some (.link target) := by
    by_cases here : other = location
    · subst here
      refine iff_of_false (fun link => ?_) (Disk.not_link_of_follow followed target)
      by_cases sink : machine.disk.get? other = some .sink
      · rcases kept with ⟨-, rfl⟩ | ⟨thing, executable, rfl⟩
        · rw [sink] at link
          cases link
        · simp [Disk.get?_put, Disk.ne_root_of_not_directory machine.disk thing] at link
      · obtain ⟨executable, file⟩ := stands sink
        rw [file] at link
        cases link
    · rw [others other here]
  have aims (other : Path) (place : Location) :
      (machine.withDisk disk).aim other = .ok place ↔ machine.aim other = .ok place :=
    Machine.aim_withDisk_iff folders links
  refine ⟨location, leads, fun other place there => ?_, aims, others, fun noSink => ?_⟩
  · exact Machine.locate_withDisk (fun folder => (folders folder).mpr) there
  · obtain ⟨executable, file⟩ := stands noSink
    exact ⟨executable, (Machine.reach_eq_ok_iff ..).mpr ⟨(aims _ _).mpr leads, file⟩⟩

namespace World

variable {world after : World}

theorem writeFile_cases (path : Path) (text : String)
    (ran : world.exec (Builder.writeFile path text) = (result, after)) :
    (∃ failed cause, result = .error (.inaccessible failed cause)) ∨
      result = .ok () ∧ ∃ location, Written world.machine after.machine path text location := by
  rw [Builder.writeFile, exec_orInaccessible, run_request] at ran
  rcases change_cases world.machine
    (world.machine.disk.write world.machine.working path text.toUTF8) with
    ⟨cause, -, refused⟩ | ⟨disk, written, changed⟩
  · simp only [answer, refused, withMachine] at ran
    cases ran; exact .inl ⟨_, _, rfl⟩
  · simp only [answer, changed, withMachine] at ran
    cases ran
    exact .inr ⟨rfl, written_of_write written⟩

end World

/-- The two files of a package build are kept in two places, where they and links of their names
lead. -/
def Machine.KeepsApart (machine : Machine) (work : Path) : Prop :=
  ∀ source manifest, machine.aim (work.child Manifest.sourceFileName) = .ok source →
    machine.aim (work.child Manifest.fileName) = .ok manifest →
    source ≠ manifest ∧ machine.disk.get? source ≠ some .sink ∧
      machine.disk.get? manifest ≠ some .sink

instance (machine : Machine) (work : Path) : Decidable (machine.KeepsApart work) :=
  decidable_of_iff (∀ source ∈ (machine.aim (work.child Manifest.sourceFileName)).toOption,
      ∀ manifest ∈ (machine.aim (work.child Manifest.fileName)).toOption,
        source ≠ manifest ∧ machine.disk.get? source ≠ some .sink ∧
          machine.disk.get? manifest ≠ some .sink) <| by
    have taken {result : Except SystemError Location} {location : Location} :
        location ∈ result.toOption ↔ result = .ok location := by
      cases result <;> simp [Except.toOption]
    simp only [taken, Machine.KeepsApart]
    exact ⟨fun all source manifest leads leadsToo => all source leads manifest leadsToo,
      fun all source leads manifest leadsToo => all source manifest leads leadsToo⟩

/-- Where a machine puts the two files of a package build. -/
def Machine.FilesLead (machine : Machine) (work : Path) (location : Location) : Prop :=
  machine.aim (work.child Manifest.sourceFileName) = .ok location ∨
    machine.aim (work.child Manifest.fileName) = .ok location

/-- A directory of one's own keeps the two files of a package build. A shared one does so unless
links or devices that are left in it are in the way. -/
def Machine.KeepsFiles (machine : Machine) (toolchain : Toolchain) (workRoot : Path) : Prop :=
  match toolchain.workMode with
  | .unique => machine.disk.IsTree
  | .fixed =>
    let work := workRoot.child toolchain.workName
    (machine.withDirectory work).KeepsApart work

/-- The package tool is shown the files of a build: the directory that holds them is told as text,
and they are kept in it. -/
def Machine.ShowsFiles (machine : Machine) (toolchain : Toolchain) (workRoot : Path) : Prop :=
  (workRoot.child toolchain.workName).IsText ∧ machine.KeepsFiles toolchain workRoot

/-- It is shown those of builds in the directory that a machine works in. -/
def Machine.ShowsFilesHere (machine : Machine) (toolchain : Toolchain) : Prop :=
  ∀ here, machine.working = some here → machine.ShowsFiles toolchain (locationPath here)

/-- A shared working directory in which an earlier tool has left a link where builds put their
source. -/
def World.linked (target : Path) : World :=
  { World.small ScriptedTool.idle.tool with
    machine.disk.entries := [(["t"], .directory), (["w"], .directory), (["dev"], .directory),
      (["dev", "null"], .sink), (["w", ".graft-quasiquote"], .directory),
      (["w", ".graft-quasiquote", "quasiquote.rs"], .link target)] }

/-- The working directory when the package tool is called. -/
structure PackageFiles (before machine : Machine) (toolchain : Toolchain) (job : Job)
    (manifest : String) (work : WorkDirectory) : Prop where
  absolute : job.workRoot.isAbsolute = true → work.path.isAbsolute = true
  isText : job.workRoot.isAbsolute = true → (job.workRoot.child toolchain.workName).IsText →
    work.path.IsText
  source : before.KeepsFiles toolchain job.workRoot → ∃ location executable,
    machine.reach (work.path.child Manifest.sourceFileName) =
      .ok (location, .file job.source.toUTF8 executable)
  manifest : before.KeepsFiles toolchain job.workRoot → ∃ location executable,
    machine.reach (work.path.child Manifest.fileName) =
      .ok (location, .file manifest.toUTF8 executable)
  fresh : toolchain.workMode = .unique → before.disk.IsTree →
    machine.isFile (Builder.builtArchive (work.path.child "target")) = false

theorem ne_of_last (front back : Location) (apart : first ≠ second) :
    front ++ [first] ≠ back ++ [second] := by
  intro same
  have last := congrArg List.getLast? same
  rw [List.getLast?_concat, List.getLast?_concat] at last
  exact apart (Option.some.inj last)

variable {before made middle machine : Machine} {manifest : String}

/-- A directory of one's own is empty when it has been made. -/
theorem World.IsMade.empty (ready : World.IsMade before made parent .unique name work)
    (tree : before.disk.IsTree) : work.path.isAbsolute = true ∧
      ∃ root, made.locate work.path = .ok root ∧
        ∀ rest ≠ [], made.disk.get? (root ++ rest) = none := by
  obtain ⟨whole, root, free, grown, leads⟩ := ready.unique rfl
  refine ⟨whole, root, leads, fun rest some => ?_⟩
  have apart : root ++ rest ≠ root := by simpa using some
  rw [grown, Disk.get?_put_of_ne _ _ apart, tree.free_below free]

theorem World.IsMade.keepsApart {toolchain : Toolchain}
    (ready : World.IsMade before made parent toolchain.workMode toolchain.workName work)
    (keeps : before.KeepsFiles toolchain parent) : made.KeepsApart work.path := by
  rw [Machine.KeepsFiles] at keeps
  cases mode : toolchain.workMode with
  | fixed =>
    rw [mode] at keeps
    obtain ⟨path, rfl⟩ := ready.fixed mode
    rw [path]
    exact keeps
  | unique =>
    rw [mode] at keeps ready
    obtain ⟨whole, root, leads, empty⟩ := ready.empty keeps
    intro source manifest leadsSource leadsManifest
    obtain rfl := Machine.aim_in_empty whole leads empty isPlainName_source leadsSource
    obtain rfl := Machine.aim_in_empty whole leads empty isPlainName_manifest leadsManifest
    exact ⟨ne_of_last _ _ (by decide), by simp [empty], by simp [empty]⟩

/-- Two files that are kept apart can both be read when both are written. -/
theorem filesKept (first : Written made middle (work.child Manifest.sourceFileName) source place)
    (second : Written middle machine (work.child Manifest.fileName) manifest goal)
    (keeps : made.KeepsApart work) :
    (∃ location executable, machine.reach (work.child Manifest.sourceFileName) =
        .ok (location, .file source.toUTF8 executable)) ∧
      ∃ location executable, machine.reach (work.child Manifest.fileName) =
        .ok (location, .file manifest.toUTF8 executable) := by
  obtain ⟨apart, noSink, noSinkToo⟩ := keeps _ _ first.leads ((first.aims _ _).mp second.leads)
  constructor
  · obtain ⟨executable, reached⟩ := first.found noSink
    obtain ⟨leads, stands⟩ := (Machine.reach_eq_ok_iff ..).mp reached
    refine ⟨place, executable, (Machine.reach_eq_ok_iff ..).mpr ⟨(second.aims _ _).mpr leads, ?_⟩⟩
    rw [second.others _ apart, stands]
  · rw [← first.others _ apart.symm] at noSinkToo
    obtain ⟨executable, reached⟩ := second.found noSinkToo
    exact ⟨goal, executable, reached⟩

theorem packageFiles_of_written {toolchain : Toolchain} (work : WorkDirectory)
    (ready : World.IsMade before made job.workRoot toolchain.workMode toolchain.workName work)
    (first : Written made middle (work.path.child Manifest.sourceFileName) job.source place)
    (second : Written middle machine (work.path.child Manifest.fileName) manifest goal) :
    PackageFiles before machine toolchain job manifest work := by
  refine ⟨ready.absolute, ready.isText,
    fun keeps => (filesKept first second (ready.keepsApart keeps)).1,
    fun keeps => (filesKept first second (ready.keepsApart keeps)).2, fun unique tree => ?_⟩
  · rw [unique] at ready
    obtain ⟨whole, root, leads, empty⟩ := ready.empty tree
    obtain rfl := Machine.aim_in_empty whole leads empty isPlainName_source first.leads
    obtain rfl := Machine.aim_in_empty whole leads empty isPlainName_manifest
      ((first.aims _ _).mp second.leads)
    have missing (entry : DiskEntry) (told : Location) :
        machine.find (Builder.builtArchive (work.path.child "target")) ≠ .ok (told, entry) := by
      intro found
      obtain ⟨there, stands⟩ := (Machine.find_eq_ok_iff ..).mp found
      have inside := Builder.locate_builtArchive whole there
      rw [← Machine.locate_of_absolute whole leads] at inside
      have others : (archiveName Manifest.libraryName : OsText) ≠ Manifest.fileName ∧
          (archiveName Manifest.libraryName : OsText) ≠ Manifest.sourceFileName := by decide
      generalize OsText.ofText (archiveName Manifest.libraryName) = name at inside others
      obtain ⟨notManifest, notSource⟩ := others
      rw [second.others told (inside ▸ ne_of_last _ _ notManifest),
        first.others told (inside ▸ ne_of_last _ _ notSource), inside, List.append_assoc,
        List.append_assoc, empty _ (by simp)] at stands
      cases stands
    rw [Bool.eq_false_iff, ne_eq, Machine.isFile_iff]
    rintro ⟨told, contents, executable, reached⟩
    rcases Machine.reach_cases reached with found | ⟨place, target, link⟩
    · exact missing _ _ found
    · exact missing _ _ link

/-- What a build in a working directory ends in once the package tool was called: an archive
that the tool left at `told` is handed on. -/
structure InsideEnd (decided : Except Failure Unit) (left after : Machine) (told : Path)
    (result : Except Failure Path) : Prop where
  failed : ∀ failure, decided = .error failure → result = .error failure
  missing : decided = .ok () → left.isFile told = false →
    result = .error (.archiveMissing told)
  present : decided = .ok () → left.isFile told = true →
    (∃ path cause, result = .error (.inaccessible path cause)) ∨
      ∃ archive, result = .ok archive ∧ World.HandedOn left after told archive

theorem InsideEnd.ofFile (isFile : left.isFile told = true)
    (ended : (∃ path cause, result = .error (.inaccessible path cause)) ∨
      ∃ archive, result = .ok archive ∧ World.HandedOn left after told archive) :
    InsideEnd (.ok ()) left after told result where
  failed := nofun
  missing := fun _ noFile => by rw [isFile] at noFile; cases noFile
  present := fun _ _ => ended

/-- An archive is only handed on if the tool has succeeded and has left it. -/
theorem InsideEnd.handedOn {decided : Except Failure Unit}
    (ends : InsideEnd decided left after told (.ok archive)) :
    decided = .ok () ∧ left.isFile told = true ∧ World.HandedOn left after told archive := by
  have passed : decided = .ok () := by
    cases decided with
    | ok done => rfl
    | error failure => cases ends.failed failure rfl
  have isFile : left.isFile told = true := by
    by_contra noFile
    cases ends.missing passed (by simpa using noFile)
  rcases ends.present passed isFile with ⟨path, cause, impossible⟩ | ⟨other, same, handed⟩
  · cases impossible
  · cases same
    exact ⟨passed, isFile, handed⟩

/-- What a package build ends in: a build in a working directory that is removed after a
success. -/
structure PackageEnd (decided : Except Failure Unit) (left after : Machine)
    (work : WorkDirectory) (told : Path) (result : Except Failure Path) : Prop where
  failed : ∀ failure, decided = .error failure → result = .error failure
  missing : decided = .ok () → left.isFile told = false →
    result = .error (.archiveMissing told)
  present : decided = .ok () → left.isFile told = true →
    (∃ path cause, result = .error (.inaccessible path cause)) ∨
      ∃ archive moved disk, result = .ok archive ∧ World.HandedOn left moved told archive ∧
        moved.disk.removeTree moved.working work.path = (.ok (), disk) ∧
        after = moved.withDisk disk

theorem PackageEnd.ofFile {decided : Except Failure Unit} (passed : decided = .ok ())
    (isFile : left.isFile told = true)
    (ended : (∃ path cause, result = .error (.inaccessible path cause)) ∨
      ∃ archive moved disk, result = .ok archive ∧ World.HandedOn left moved told archive ∧
        moved.disk.removeTree moved.working work.path = (.ok (), disk) ∧
        after = moved.withDisk disk) :
    PackageEnd decided left after work told result where
  failed := fun _ failed => by rw [passed] at failed; cases failed
  missing := fun _ noFile => by rw [isFile] at noFile; cases noFile
  present := fun _ _ => ended

theorem PackageEnd.handedOn {decided : Except Failure Unit}
    (ends : PackageEnd decided left after work told (.ok archive)) (passed : decided = .ok ()) :
    left.isFile told = true ∧ ∃ moved disk, World.HandedOn left moved told archive ∧
      moved.disk.removeTree moved.working work.path = (.ok (), disk) ∧
      after = moved.withDisk disk := by
  have isFile : left.isFile told = true := by
    by_contra noFile
    cases ends.missing passed (by simpa using noFile)
  rcases ends.present passed isFile with
    ⟨path, cause, impossible⟩ | ⟨other, moved, disk, same, handed, removed, stays⟩
  · cases impossible
  · cases same
    exact ⟨isFile, moved, disk, handed, removed, stays⟩

namespace Builder

def callIn (builder : Builder) (job : Job) (work : WorkDirectory) : Invocation :=
  packageCall builder.settings.toolchain job.extraArguments
    (work.path.child Manifest.fileName) (work.path.child "target")

def toldIn (work : WorkDirectory) : Path := builtArchive (work.path.child "target")

/-- Where a package tool has left its archive there is a working directory. -/
theorem enters_of_told (work : WorkDirectory) {machine : Machine}
    (isFile : machine.isFile (toldIn work) = true) : ∃ root, machine.Enters work.path root := by
  obtain ⟨_, contents, executable, reached⟩ := (Machine.isFile_iff ..).mp isFile
  obtain ⟨location, leads, -⟩ :=
    (Disk.aim_eq_ok_iff ..).mp ((Machine.reach_eq_ok_iff ..).mp reached).1
  obtain ⟨start, begun, followed⟩ := (Machine.locate_eq_ok_iff ..).mp leads
  have absolute : (toldIn work).isAbsolute = work.path.isAbsolute := by
    rw [toldIn, builtArchive, Path.isAbsolute_child _ isPlainName_archive.plain,
      Path.isAbsolute_child _ isPlainName_release.plain,
      Path.isAbsolute_child _ isPlainName_target.plain]
  obtain ⟨_, inRelease, -⟩ := Disk.walk_child isPlainName_archive followed
  obtain ⟨_, inTarget, -⟩ := Disk.walk_child isPlainName_release inRelease
  obtain ⟨root, inWork, folder⟩ := Disk.walk_child isPlainName_target inTarget
  refine ⟨root, start, ?_, inWork, folder⟩
  rw [← absolute]
  split
  · rename_i whole
    exact Machine.origin_absolute begun whole
  · rename_i relative
    exact Machine.origin_relative begun (by simpa using relative)

/-- The part of a package build that works in a directory made for it. -/
def buildIn (builder : Builder) (job : Job) (manifest : String) (work : WorkDirectory) :
    Task Path := do
  writeFile (work.path.child Manifest.sourceFileName) job.source
  writeFile (work.path.child Manifest.fileName) manifest
  builder.report (.trace
    ("manifest " ++ (work.path.child Manifest.fileName).display ++ ":\n" ++ manifest))
  builder.report (.phase 4 ("Building " ++ (work.path.child Manifest.fileName).display))
  builder.callTool (builder.callIn job work) "build"
  let archive ← builder.scratch.relocate (toldIn work)
  builder.report (.topic .build ("moved " ++
    (toldIn work).display ++ " -> " ++ archive.display))
  return archive

theorem buildPackage_eq (builder : Builder) (job : Job) (manifest : String) :
    builder.buildPackage job manifest = (do
      let work ← WorkDirectory.make job.workRoot builder.settings.toolchain.workMode
        builder.settings.toolchain.workName
      let archive ← (builder.buildIn job manifest work).onFailure work.givenUp
      work.remove
      return archive) := rfl

end Builder

/-- What the removal of the working directory has taken away once an archive was handed on. The
archive stood in the directory, so there was one. -/
theorem World.HandedOn.removeTree_eq_ok
    (handed : World.HandedOn left moved (Builder.toldIn work) archive)
    (isFile : left.isFile (Builder.toldIn work) = true)
    (removed : moved.disk.removeTree moved.working work.path = (.ok (), disk)) :
    ∃ start root, Disk.origin moved.working work.path = .ok start ∧
      moved.disk.find moved.working work.path = .ok (root, .directory) ∧
      root = destination start (pieces work.path.text.toList) ∧
      ∀ location, disk.get? location =
        if Taken (work.path.trail start) root location then none else moved.disk.get? location := by
  obtain ⟨root, enters⟩ := Builder.enters_of_told work isFile
  have noLink := enters.not_isLink handed.stays handed.keeps
  exact Disk.removeTree_eq_ok (fun location target link => noLink ⟨location, target, link⟩) removed

namespace World

variable {world after : World}

theorem buildIn_cases (builder : Builder) (job : Job) (manifest : String) (work : WorkDirectory)
    (ready : IsMade before world.machine job.workRoot builder.settings.toolchain.workMode
      builder.settings.toolchain.workName work)
    (ran : world.exec (builder.buildIn job manifest work) = (result, after)) :
    ((∃ path cause, result = .error (.inaccessible path cause)) ∧ SameRecords world after) ∨
      ∃ machine,
        PackageFiles before machine builder.settings.toolchain job manifest work ∧
        Called world after (builder.callIn job work) machine ∧
        InsideEnd
          (verdict builder.settings.toolchain.packageTool "build"
            (world.tool (builder.callIn job work) machine).1)
          (world.tool.leaves (builder.callIn job work) machine) after.machine
          (Builder.toldIn work) result := by
  rw [Builder.buildIn] at ran
  obtain ⟨outcome, middle, sourced, ran⟩ := exec_bind_ran ran
  have untouched : SameRecords world middle :=
    (Task.Asks.orInaccessible _ (.request _ trivial)).sameRecords sourced
  rcases writeFile_cases _ _ sourced with ⟨path, cause, rfl⟩ | ⟨rfl, place, first⟩
  · cases ran; exact .inl ⟨⟨_, _, rfl⟩, untouched⟩
  obtain ⟨outcome, prepared, described, ran⟩ := exec_bind_ran ran
  have untouchedToo : SameRecords world prepared := untouched.trans
    ((Task.Asks.orInaccessible _ (.request _ trivial)).sameRecords described)
  rcases writeFile_cases _ _ described with ⟨path, cause, rfl⟩ | ⟨rfl, goal, second⟩
  · cases ran; exact .inl ⟨⟨_, _, rfl⟩, untouchedToo⟩
  obtain ⟨_, ran⟩ := exec_report_bind ran
  obtain ⟨events, ran⟩ := exec_report_bind ran
  obtain ⟨outcome, called, calling, ran⟩ := exec_bind_ran ran
  obtain ⟨answered, call, leaves⟩ := callTool_cases builder calling
  have record := call.ofLocal (untouchedToo.trans (sameRecords_events prepared events))
  have sameTool : prepared.tool = world.tool := untouchedToo.tool
  dsimp only at answered leaves
  rw [sameTool] at answered leaves
  refine .inr ⟨prepared.machine, packageFiles_of_written work ready first second, ?_⟩
  rw [← leaves]
  cases outcome with
  | error failure =>
    cases ran
    refine ⟨record, fun other decided => ?_, fun decided => ?_, fun decided => ?_⟩
    all_goals cases answered.trans decided
    rfl
  | ok done =>
    have passed : verdict builder.settings.toolchain.packageTool "build"
        (world.tool (builder.callIn job work) prepared.machine).1 = .ok () := answered.symm
    rw [passed]
    obtain ⟨outcome, later, moved, ran⟩ := exec_bind_ran ran
    have kept := (Scratch.asks_relocate builder.scratch _).isLocal.sameRecords moved
    rcases relocate_cases builder.scratch _ moved with
      ⟨noFile, rfl⟩ | ⟨isFile, ⟨path, cause, rfl⟩ | ⟨archive, rfl, handed⟩⟩
    · cases ran
      refine ⟨record.thenLocal kept, nofun, fun _ _ => rfl, fun _ isFile => ?_⟩
      rw [noFile] at isFile
      cases isFile
    · cases ran
      exact ⟨record.thenLocal kept, .ofFile isFile (.inl ⟨_, _, rfl⟩)⟩
    · obtain ⟨ending, ran⟩ := exec_report_bind ran
      cases ran
      exact ⟨(record.thenLocal kept).thenLocal (sameRecords_events later ending),
        .ofFile isFile (.inr ⟨archive, rfl, handed⟩)⟩

theorem buildPackage_cases (builder : Builder) (job : Job) (manifest : String)
    (ran : world.exec (builder.buildPackage job manifest) = (result, after)) :
    ((∃ path cause, result = .error (.inaccessible path cause)) ∧ SameRecords world after) ∨
      ∃ work machine,
        PackageFiles world.machine machine builder.settings.toolchain job manifest work ∧
        Called world after (builder.callIn job work) machine ∧
        PackageEnd
          (verdict builder.settings.toolchain.packageTool "build"
            (world.tool (builder.callIn job work) machine).1)
          (world.tool.leaves (builder.callIn job work) machine) after.machine work
          (Builder.toldIn work) result := by
  rw [Builder.buildPackage_eq] at ran
  obtain ⟨outcome, middle, made, ran⟩ := exec_bind_ran ran
  have untouched := (WorkDirectory.asks_make _ _ _).isScratch.isLocal.sameRecords made
  rcases makeWork_cases _ _ _ made with ⟨path, cause, rfl⟩ | ⟨work, rfl, ready⟩
  · cases ran; exact .inl ⟨⟨_, _, rfl⟩, untouched⟩
  obtain ⟨outcome, cleaned, handing, ran⟩ := exec_bind_ran ran
  obtain ⟨built, inside, rfl⟩ := exec_onFailure_ran handing
  have givesUp := Program.Asks.sameRecords
    (Task.asks_requestAll work.givenUp work.isLocal_givenUp) built
  rcases buildIn_cases builder job manifest work ready inside with
    ⟨⟨path, cause, rfl⟩, same⟩ | ⟨machine, files, call, ends⟩
  · cases ran
    exact .inl ⟨⟨_, _, rfl⟩, (untouched.trans same).trans givesUp⟩
  rw [untouched.tool] at ends
  have record := call.ofLocal untouched
  refine .inr ⟨work, machine, files, ?_⟩
  cases outcome with
  | error failure =>
    cases ran
    refine ⟨record.thenLocal givesUp, ends.failed, ends.missing, fun passed isFile => ?_⟩
    rcases ends.present passed isFile with refused | ⟨archive, impossible, -⟩
    · exact .inl refused
    · cases impossible
  | ok archive =>
    obtain ⟨passed, isFile, handed⟩ := ends.handedOn
    obtain ⟨outcome, later, removed, ran⟩ := exec_bind_ran ran
    have kept := record.thenLocal (work.asks_remove.sameRecords removed)
    rcases removeWork_cases work removed with ⟨path, cause, rfl⟩ | ⟨rfl, disk, gone, left⟩
    · cases ran
      exact ⟨kept, .ofFile passed isFile (.inl ⟨_, _, rfl⟩)⟩
    · cases ran
      exact ⟨kept, .ofFile passed isFile
        (.inr ⟨archive, built.machine, disk, rfl, handed, gone, left⟩)⟩

end World

end FragmentBuild
