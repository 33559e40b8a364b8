import FragmentBuild.Proofs.MachinePaths
import FragmentBuild.Proofs.LocalRequests

/-! What becomes of temporary files and working directories. Each operation is described by
everything it can end in: a failure to access a path, or a result together with what is then
found on the machine. -/
namespace FragmentBuild

namespace World

variable {world after : World}

theorem change_cases (machine : Machine) (result : Except SystemError Disk) :
    (∃ cause, result = .error cause ∧ machine.change result = (.error cause, machine)) ∨
      ∃ disk, result = .ok disk ∧ machine.change result = (.ok (), machine.withDisk disk) := by
  cases result with
  | error cause => exact .inl ⟨cause, rfl, rfl⟩
  | ok disk => exact .inr ⟨disk, rfl, rfl⟩

theorem answer_keepsDirectories (world : World) {request : Request} (kind : request.IsScratch) :
    Disk.KeepsDirectories world.machine.disk (world.answer request).2.machine.disk := by
  have changed (result : Except SystemError Disk)
      (keeps : ∀ disk, result = .ok disk → Disk.KeepsDirectories world.machine.disk disk) :
      Disk.KeepsDirectories world.machine.disk (world.machine.change result).2.disk := by
    rcases change_cases world.machine result with ⟨cause, -, done⟩ | ⟨disk, made, done⟩
    · rw [done]; exact fun _ => id
    · rw [done]; exact keeps disk made
  cases request with
  | makeDirectories path =>
    exact (Disk.makeDirectories_grows world.machine.disk world.machine.working path).keepsDirectories
  | makeDirectory path =>
    refine changed _ fun disk made => ?_
    obtain ⟨location, -, -, free, rfl, -⟩ := Disk.makeDirectory_eq_ok made
    exact (Disk.grows_put _ free (by simp)).keepsDirectories
  | createFile path =>
    refine changed _ fun disk made => ?_
    obtain ⟨location, -, free, rfl⟩ := Disk.createFile_eq_ok made
    exact (Disk.grows_put _ free (by simp)).keepsDirectories
  | write path contents => exact changed _ fun _ => Disk.keepsDirectories_write
  | rename source target => exact changed _ fun _ => Disk.keepsDirectories_rename
  | copy source target => exact changed _ fun _ => Disk.keepsDirectories_copy
  | removeFile path => exact changed _ fun _ => Disk.keepsDirectories_removeFile
  | discardFile path => exact changed _ fun _ => Disk.keepsDirectories_removeFile
  | removeTree path | discardTree path | call invocation => exact kind.elim
  | _ => exact fun _ => id

theorem run_keepsDirectories {program : Program α} (asks : program.Asks Request.IsScratch)
    (world : World) :
    Disk.KeepsDirectories world.machine.disk (world.run program).2.machine.disk := by
  induction program generalizing world with
  | done value => exact fun _ => id
  | ask request next ih =>
    exact fun folder stands => ih _ (asks.2 _) (world.answer request).2 folder
      (answer_keepsDirectories world asks.1 folder stands)

theorem isAbsolute_locationPath (location : Location) :
    (Machine.locationPath location).isAbsolute = true := by
  simp [Machine.locationPath, Path.isAbsolute]

theorem absolute_cases (world : World) (path : Path) :
    (∃ cause, world.run (absolute path) = (.error cause, world)) ∨
      ∃ whole, world.run (absolute path) = (.ok whole, world) ∧ whole.isAbsolute = true ∧
        (whole = path ∨ ∃ base, whole = Path.join base path) := by
  unfold absolute
  split
  · rename_i own
    exact .inr ⟨path, rfl, own, .inl rfl⟩
  · cases lost : world.machine.working with
    | none => exact .inl ⟨.notFound, by rw [run_bind, run_request]; simp [answer, lost]⟩
    | some location =>
      refine .inr ⟨(Machine.locationPath location).join path, ?_, ?_, .inr ⟨_, rfl⟩⟩
      · rw [run_bind, run_request]; simp [answer, lost]
      · exact Path.isAbsolute_join _ _ (isAbsolute_locationPath location)

/-- A file under a name that was not in use: its path is absolute, ends as asked and leads to a
place where nothing stood. -/
structure NewFile (before after : Machine) (ending : OsText) (path : Path) (location : Location) :
    Prop where
  absolute : path.isAbsolute = true
  ends : path.EndsIn ending
  leads : before.locate path = .ok location
  free : before.disk.get? location = none
  made : after = before.withDisk (before.disk.put location (.file .empty false))

theorem freshFile_cases (root : Path) (ending : OsText) (plain : slashByte ∉ ending.toList)
    (attempts : Nat) (ran : world.run (Scratch.freshFile root ending attempts) = (result, after)) :
    (∃ cause, result = .error cause ∧ after.machine = world.machine) ∨
      ∃ path location, result = .ok path ∧
        NewFile world.machine after.machine ending path location := by
  induction attempts generalizing world with
  | zero => cases ran; exact .inl ⟨_, rfl, rfl⟩
  | succ attempts ih =>
    rw [Scratch.freshFile, run_bind, run_request] at ran
    dsimp only [answer] at ran
    generalize given : ({ world with named := world.named + 1 } : World) = named at ran
    generalize world.names world.named = name at ran
    have same : named.machine = world.machine := by rw [← given]
    rw [run_bind] at ran
    rcases absolute_cases named (root.child (Scratch.filePrefix ++ name ++ ending)) with
      ⟨cause, lost⟩ | ⟨path, whole, absolute, shape⟩
    · rw [lost] at ran
      cases ran
      exact .inl ⟨cause, rfl, same⟩
    · rw [whole] at ran
      dsimp only at ran
      rw [run_bind, run_request] at ran
      rcases change_cases named.machine
        (named.machine.disk.createFile named.machine.working path) with
        ⟨cause, -, refused⟩ | ⟨disk, created, changed⟩
      · simp only [answer, refused, withMachine] at ran
        have again : named = { named with machine := named.machine } := rfl
        rw [← again] at ran
        cases cause with
        | alreadyExists => rw [← same]; exact ih ran
        | _ => cases ran; exact .inl ⟨_, rfl, same⟩
      · simp only [answer, changed, withMachine] at ran
        cases ran
        obtain ⟨location, leads, free, made⟩ := Disk.createFile_eq_ok created
        refine .inr ⟨path, location, rfl, absolute, ?_, ?_, ?_, ?_⟩
        · have ends : (Path.mk (Scratch.filePrefix ++ name ++ ending)).EndsIn ending :=
            Path.endsIn_append _ _ plain
          rcases shape with rfl | ⟨base, rfl⟩
          · exact ends.join root
          · exact (ends.join root).join base
        · rwa [same] at leads
        · rwa [same] at free
        · rw [made, same]

theorem NewFile.grows (new : NewFile before later ending path location) :
    Machine.Grows before later := by
  rw [new.made]
  exact Machine.grows_withDisk (Disk.grows_put before.disk new.free (by simp))

theorem NewFile.found {later : Machine} (new : NewFile before later ending path location) :
    later.find path = .ok (location, .file .empty false) := by
  have notRoot : location ≠ [] :=
    Disk.ne_root_of_not_directory before.disk (by simp [new.free])
  refine (Machine.find_eq_ok_iff ..).mpr ⟨new.grows.leads _ _ new.leads, ?_⟩
  rw [new.made, Machine.withDisk, Disk.get?_put, if_neg notRoot, if_pos rfl]

theorem makeRoot_cases (scratch : Scratch) (ran : world.exec scratch.makeRoot = (result, after)) :
    (result = .ok () ∨ ∃ path cause, result = .error (.inaccessible path cause)) ∧
      Machine.Grows world.machine after.machine := by
  have grows := Machine.grows_withDisk
    (Disk.makeDirectories_grows world.machine.disk world.machine.working scratch.root)
  rw [Scratch.makeRoot, exec_orInaccessible, run_request] at ran
  cases done : world.machine.disk.makeDirectories world.machine.working scratch.root with
  | mk outcome disk =>
    rw [done] at grows
    simp only [answer, withMachine, Machine.attempt, done] at ran
    cases outcome with
    | ok made => cases ran; exact ⟨.inl rfl, grows⟩
    | error cause => cases ran; exact ⟨.inr ⟨_, _, rfl⟩, grows⟩

/-- A file of one's own: found at a place where nothing stood before, and nothing else has
changed. -/
structure OwnFile (before after : Machine) (ending : OsText) (path : Path) (location : Location) :
    Prop where
  absolute : path.isAbsolute = true
  ends : path.EndsIn ending
  free : before.disk.get? location = none
  grows : Machine.Grows before after
  found : after.find path = .ok (location, .file .empty false)

theorem newFile_cases (scratch : Scratch) (ending : OsText) (plain : slashByte ∉ ending.toList)
    (ran : world.exec (scratch.newFile ending) = (result, after)) :
    (∃ path cause, result = .error (.inaccessible path cause)) ∨
      ∃ path location, result = .ok path ∧
        OwnFile world.machine after.machine ending path location := by
  rw [Scratch.newFile] at ran
  obtain ⟨outcome, middle, rooted, ran⟩ := exec_bind_ran ran
  obtain ⟨rfl | ⟨path, cause, rfl⟩, grows⟩ := makeRoot_cases scratch rooted
  · dsimp only at ran
    rw [exec_orInaccessible] at ran
    cases made : middle.run (Scratch.freshFile scratch.root ending nameAttempts) with
    | mk fresh later =>
      rw [made] at ran
      rcases freshFile_cases scratch.root ending plain nameAttempts made with
        ⟨cause, rfl, -⟩ | ⟨path, location, rfl, new⟩
      · cases ran; exact .inl ⟨_, _, rfl⟩
      · cases ran
        refine .inr ⟨path, location, rfl, new.absolute, new.ends, ?_, grows.trans new.grows,
          new.found⟩
        cases stood : world.machine.disk.get? location with
        | none => rfl
        | some entry => exact absurd (grows.disk.keeps _ _ stood) (by simp [new.free])
  · cases ran; exact .inl ⟨path, cause, rfl⟩

/-- A written file is read as it was written, wherever no sink and no link stands. -/
theorem find_write {machine : Machine} (leads : machine.locate path = .ok location)
    (noSink : machine.disk.get? location ≠ some .sink)
    (noLink : ∀ target, machine.disk.get? location ≠ some (.link target))
    (written : machine.disk.write machine.working path contents = .ok disk) :
    ∃ executable, machine.disk.get? location ≠ some .directory ∧
      disk = machine.disk.put location (.file contents executable) ∧
      (machine.withDisk disk).find path = .ok (location, .file contents executable) := by
  obtain ⟨goal, leadsToo, ⟨sink, -⟩ | ⟨thing, executable, rfl⟩⟩ := Disk.write_eq_ok written
  all_goals
    obtain rfl : goal = location :=
      Except.ok.inj (leadsToo.symm.trans (Disk.aim_of_locate leads noLink))
  · exact absurd sink noSink
  · refine ⟨executable, thing, rfl, Machine.find_withDisk ?_ leads ?_⟩
    · intro directory stands
      exact (Disk.directory_put_iff machine.disk directory thing (by simp)).mpr stands
    · rw [Disk.get?_put, if_neg (Disk.ne_root_of_not_directory machine.disk thing), if_pos rfl]

theorem sourceFile_cases (scratch : Scratch) (text : String)
    (ran : world.exec (scratch.sourceFile text) = (result, after)) :
    (∃ failed cause, result = .error (.inaccessible failed cause)) ∨
      ∃ path location executable, result = .ok path ∧ path.isAbsolute = true ∧
        path.EndsIn ".rs" ∧
        after.machine.find path = .ok (location, .file text.toUTF8 executable) := by
  rw [Scratch.sourceFile] at ran
  obtain ⟨outcome, middle, opened, ran⟩ := exec_bind_ran ran
  rcases newFile_cases scratch ".rs" (by decide) opened with
    ⟨path, cause, rfl⟩ | ⟨path, location, rfl, own⟩
  · cases ran; exact .inl ⟨_, _, rfl⟩
  dsimp only at ran
  obtain ⟨leads, stands⟩ := (Machine.find_eq_ok_iff ..).mp own.found
  rw [exec_bind, exec_onFailure, exec_orInaccessible, run_request] at ran
  rcases change_cases middle.machine
    (middle.machine.disk.write middle.machine.working path text.toUTF8) with
    ⟨cause, -, refused⟩ | ⟨disk, written, changed⟩
  · simp only [answer, refused, withMachine] at ran
    cases ran; exact .inl ⟨_, _, rfl⟩
  · simp only [answer, changed, withMachine, exec_pure] at ran
    obtain ⟨executable, -, -, found⟩ := find_write leads (by simp [stands]) (by simp [stands]) written
    cases ran
    exact .inr ⟨path, location, executable, rfl, own.absolute, own.ends, found⟩

theorem find_erase {machine : Machine} (found : machine.find path = .ok (location, entry))
    (thing : machine.disk.get? other ≠ some .directory) (apart : location ≠ other) :
    (machine.withDisk (machine.disk.erase other)).find path = .ok (location, entry) := by
  obtain ⟨leads, stands⟩ := (Machine.find_eq_ok_iff ..).mp found
  refine Machine.find_withDisk ?_ leads ?_
  · intro directory there
    exact (Disk.directory_erase_iff machine.disk directory thing).mpr there
  · rw [Disk.get?_erase, if_neg apart]
    by_cases root : location = []
    · rw [root, Disk.get?_root] at stands
      rw [if_pos root]
      exact stands
    · rw [if_neg root]
      exact stands

theorem find_rename {machine : Machine} (held : machine.find source = .ok (location, entry))
    (reserved : machine.find target = .ok (goal, .file old mode)) (apart : goal ≠ location)
    (renamed : machine.disk.rename machine.working source target = .ok disk) :
    (machine.withDisk disk).find target = .ok (goal, entry) := by
  obtain ⟨leadsSource, standsSource⟩ := (Machine.find_eq_ok_iff ..).mp held
  obtain ⟨leadsTarget, -⟩ := (Machine.find_eq_ok_iff ..).mp reserved
  obtain ⟨_, _, _, heldToo, notFolder, leadsToo, noFolder, rfl⟩ := Disk.rename_eq_ok renamed
  cases held.symm.trans heldToo
  cases leadsTarget.symm.trans leadsToo
  rw [if_neg (Ne.symm apart)]
  have thing : machine.disk.get? location ≠ some .directory := by simpa [standsSource]
  have noFolderThen : (machine.disk.erase location).get? goal ≠ some .directory := by
    rw [ne_eq, Disk.directory_erase_iff _ _ thing]; exact noFolder
  refine Machine.find_withDisk ?_ leadsTarget ?_
  · intro directory stands
    rw [Disk.directory_put_iff _ _ noFolderThen notFolder, Disk.directory_erase_iff _ _ thing]
    exact stands
  · rw [Disk.get?_put, if_neg (Disk.ne_root_of_not_directory machine.disk noFolder), if_pos rfl]

theorem find_copy {machine : Machine} (reserved : machine.find target = .ok (goal, .file old mode))
    (copied : machine.disk.copy machine.working source target = .ok disk) :
    ∃ location contents executable,
      machine.reach source = .ok (location, .file contents executable) ∧
        (machine.withDisk disk).find target = .ok (goal, .file contents executable) ∧
        ∀ path place, machine.locate path = .ok place →
          (machine.withDisk disk).locate path = .ok place := by
  obtain ⟨leadsTarget, standsTarget⟩ := (Machine.find_eq_ok_iff ..).mp reserved
  obtain ⟨location, contents, executable, _, reached, leadsToo, ⟨sink, -⟩ | ⟨thing, rfl⟩⟩ :=
    Disk.copy_eq_ok copied
  all_goals cases (Disk.aim_of_locate leadsTarget (by simp [standsTarget])).symm.trans leadsToo
  · simp [standsTarget] at sink
  have keeps : Disk.KeepsDirectories machine.disk
      (machine.disk.put goal (.file contents executable)) := fun directory stands =>
    (Disk.directory_put_iff machine.disk directory thing (by simp)).mpr stands
  refine ⟨location, contents, executable, reached, Machine.find_withDisk keeps leadsTarget ?_,
    fun path place => Machine.locate_withDisk keeps⟩
  rw [Disk.get?_put, if_neg (Disk.ne_root_of_not_directory machine.disk thing), if_pos rfl]

theorem move_cases (ran : world.exec (Scratch.move source target) = (result, after)) :
    (∃ path cause, result = .error (.inaccessible path cause)) ∨
      result = .ok () ∧ ∀ {location goal contents executable old mode},
        world.machine.find source = .ok (location, .file contents executable) →
        world.machine.find target = .ok (goal, .file old mode) → goal ≠ location →
        after.machine.find target = .ok (goal, .file contents executable) := by
  rw [Scratch.move, exec_request_bind] at ran
  rcases change_cases world.machine
    (world.machine.disk.rename world.machine.working source target) with
    ⟨cause, -, refused⟩ | ⟨disk, renamed, changed⟩
  · simp only [answer, refused, withMachine] at ran
    have same : ({ world with machine := world.machine } : World) = world := rfl
    rw [same, exec_bind, exec_orInaccessible, run_request] at ran
    rcases change_cases world.machine
      (world.machine.disk.copy world.machine.working source target) with
      ⟨cause, -, refused⟩ | ⟨disk, copied, changed⟩
    · simp only [answer, refused, withMachine] at ran
      cases ran; exact .inl ⟨_, _, rfl⟩
    · simp only [answer, changed, withMachine] at ran
      generalize copy : world.machine.withDisk disk = machine at ran
      rw [exec_orInaccessible, run_request] at ran
      rcases change_cases machine (machine.disk.removeFile machine.working source) with
        ⟨cause, -, refused⟩ | ⟨rest, removed, changed⟩
      · simp only [answer, refused, withMachine] at ran
        cases ran; exact .inl ⟨_, _, rfl⟩
      · simp only [answer, changed, withMachine] at ran
        cases ran
        refine .inr ⟨rfl, fun held reserved apart => ?_⟩
        obtain ⟨_, _, _, reached, found, leads⟩ := find_copy reserved copied
        cases (Machine.reach_of_find held).symm.trans reached
        rw [copy] at found leads
        have leadsSource := leads _ _ ((Machine.find_eq_ok_iff ..).mp held).1
        have plain := Disk.not_endsInSlash_of_find held (by simp)
        obtain ⟨noFolder, rfl⟩ := Disk.erased_of_removeFile plain leadsSource removed
        exact find_erase found noFolder apart
  · simp only [answer, changed, withMachine] at ran
    cases ran
    exact .inr ⟨rfl, fun held reserved apart => find_rename held reserved apart renamed⟩

/-- A file that was handed on: under a path of its own stands what stood under another, unless
that was a link. -/
structure HandedOn (before after : Machine) (source target : Path) : Prop where
  absolute : target.isAbsolute = true
  ends : target.EndsIn ".a"
  stays : ∀ here, after.working = some here → before.working = some here
  keeps : Disk.KeepsDirectories before.disk after.disk
  same : ¬ before.IsLink source → ∃ location goal contents executable,
    before.find source = .ok (location, .file contents executable) ∧
      after.find target = .ok (goal, .file contents executable)

theorem relocate_cases (scratch : Scratch) (built : Path)
    (ran : world.exec (scratch.relocate built) = (result, after)) :
    (world.machine.isFile built = false ∧ result = .error (.archiveMissing built)) ∨
      world.machine.isFile built = true ∧
        ((∃ path cause, result = .error (.inaccessible path cause)) ∨
          ∃ target, result = .ok target ∧ HandedOn world.machine after.machine built target) := by
  have working := congrArg (fun done => done.2.machine.working) ran
  have keeps := run_keepsDirectories (scratch.asks_relocate built) world
  have sameEnd := congrArg (fun done => done.2.machine.disk) ran
  rw [Scratch.relocate, exec_bind, exec_liftM, run_request] at ran
  dsimp only [answer] at ran
  cases isFile : world.machine.disk.isFile world.machine.working built with
  | false =>
    rw [isFile, if_pos (by rfl), exec_bind] at ran
    cases ran
    exact .inl ⟨isFile, rfl⟩
  | true =>
    refine .inr ⟨isFile, ?_⟩
    obtain ⟨location, contents, executable, reached⟩ := (Machine.isFile_iff ..).mp isFile
    rw [isFile, if_neg (by simp)] at ran
    obtain ⟨outcome, middle, reserved, ran⟩ := exec_bind_ran ran
    rcases newFile_cases scratch ".a" (by decide) reserved with
      ⟨path, cause, rfl⟩ | ⟨target, goal, rfl, own⟩
    · cases ran; exact .inl ⟨_, _, rfl⟩
    dsimp only at ran
    rw [exec_bind, exec_onFailure] at ran
    cases moved : middle.exec (Scratch.move built target) with
    | mk done later =>
      rw [moved] at ran
      rcases move_cases moved with ⟨path, cause, rfl⟩ | ⟨rfl, found⟩
      · cases ran; exact .inl ⟨_, _, rfl⟩
      · cases ran
        refine .inr ⟨target, rfl, own.absolute, own.ends,
          fun here stays => run_working world _ (working.trans stays), ?_, fun noLink => ?_⟩
        · rw [← sameEnd]
          exact keeps
        have held := (Machine.reach_cases reached).resolve_right noLink
        have apart : goal ≠ location := by
          rintro rfl
          have stands := ((Machine.find_eq_ok_iff ..).mp held).2
          rw [own.free] at stands
          contradiction
        exact ⟨location, goal, contents, executable, held,
          found (own.grows.find held) own.found apart⟩

end World

end FragmentBuild
