import FragmentBuild.Proofs.DirectBuild
import FragmentBuild.Proofs.Footprints

/-! Temporary files in runs with mishaps. Whatever goes wrong, whoever asked for a file either
gets it or finds nothing of it left; and where a refused request has done nothing, nothing
else has changed but directories that were missing on the way to the temporary files. -/
namespace FragmentBuild

def Exchange.made? : Exchange → Option Path
  | ⟨.createFile path, .ok (), _, _⟩ => some path
  | _ => none

def madeIn (trace : List Exchange) : List Path := trace.filterMap Exchange.made?

theorem madeIn_append (first rest : List Exchange) :
    madeIn (first ++ rest) = madeIn first ++ madeIn rest :=
  List.filterMap_append

def Request.MakesNoFile (request : Request) : Prop := ∀ path, request ≠ .createFile path

theorem madeIn_eq_nil (quiet : ∀ exchange ∈ trace, exchange.request.MakesNoFile) :
    madeIn trace = [] := by
  rw [madeIn, List.filterMap_eq_nil_iff]
  intro exchange member
  have none := quiet exchange member
  obtain ⟨request, answer, before, after⟩ := exchange
  cases request with
  | createFile path => exact absurd rfl (none path)
  | _ => rfl

theorem Request.IsReport.makesNoFile {request : Request} (isReport : request.IsReport) :
    request.MakesNoFile := by
  obtain ⟨event, rfl⟩ := isReport
  exact nofun

namespace World

open Machine (Touches)

variable {mishap : Mishap} {world after : World} {trace : List Exchange}

theorem Runs.madeIn_eq_nil {program : Program α} (asks : program.Asks Request.MakesNoFile)
    (ran : Runs mishap world program trace value after) : madeIn trace = [] :=
  FragmentBuild.madeIn_eq_nil (ran.asked asks)

theorem runs_absolute (ran : Runs mishap world (absolute path) trace result after) :
    madeIn trace = [] ∧
      ((∃ cause, result = .error cause ∧ (mishap.IsClean → after.machine = world.machine)) ∨
        ∃ whole, result = .ok whole ∧ after = world ∧
          path.IsWhole world.machine.working whole) := by
  unfold absolute at ran
  split at ran
  · rename_i own
    obtain ⟨rfl, rfl, rfl⟩ := runs_pure ran
    exact ⟨rfl, .inr ⟨path, rfl, rfl, own, .inl rfl⟩⟩
  · obtain ⟨first, rest, answer, between, rfl, asked, later⟩ := ran.bind
    rcases runs_request asked with ⟨rfl, rfl, left⟩ | ⟨cause, left, refusal, harm, rfl, rfl⟩
    · obtain rfl : world = between := left.symm
      dsimp only [World.answer] at later
      cases lost : world.machine.working with
      | none =>
        rw [lost] at later
        obtain ⟨rfl, rfl, rfl⟩ := runs_pure later
        exact ⟨rfl, .inl ⟨.notFound, rfl, fun _ => rfl⟩⟩
      | some here =>
        rw [lost] at later
        obtain ⟨rfl, rfl, rfl⟩ := runs_pure later
        refine ⟨rfl, .inr ⟨_, rfl, rfl, ?_, .inr ⟨here, rfl, rfl⟩⟩⟩
        exact Path.isAbsolute_join _ _ (isAbsolute_locationPath here)
    · cases refusal
      obtain ⟨rfl, rfl, rfl⟩ := runs_pure later
      exact ⟨rfl, .inl ⟨cause, rfl, fun clean => clean _ _ _ harm⟩⟩

theorem runs_createFile
    (ran : Runs mishap world (Program.request (.createFile path)) trace outcome after) :
    (∃ cause, outcome = .error cause ∧ madeIn trace = [] ∧
        (mishap.IsClean → after.machine = world.machine)) ∨
      ∃ disk, outcome = .ok () ∧ madeIn trace = [path] ∧
        world.machine.disk.createFile world.machine.working path = .ok disk ∧
        after.machine = world.machine.withDisk disk := by
  have made : madeIn trace = (Exchange.made? ⟨.createFile path, outcome, world.machine,
      after.machine⟩).toList := by
    rcases runs_request ran with ⟨rfl, -⟩ | ⟨cause, left, -, -, rfl, rfl⟩
    all_goals
      rw [madeIn, List.filterMap_cons]
      cases Exchange.made? _ <;> rfl
  rcases runs_change rfl ran with ⟨cause, rfl, clean⟩ | ⟨disk, created, rfl, left⟩
  · exact .inl ⟨cause, rfl, made, clean⟩
  · exact .inr ⟨disk, rfl, made, created, left⟩

/-- A new file under a name that was given out. -/
structure FreshFile (names : Nat → String) (root : Path) (ending : OsText)
    (before after : Machine) (path : Path) (location : Location) : Prop
    extends NewFile before after ending path location where
  named : ∃ number, Path.IsWhole before.working
    (root.child (Scratch.filePrefix ++ names number ++ ending)) path

theorem runs_freshFile (root : Path) (ending : OsText) (plain : slashByte ∉ ending.toList)
    (attempts : Nat)
    (ran : Runs mishap world (Scratch.freshFile root ending attempts) trace result after) :
    (∃ cause, result = .error cause ∧ madeIn trace = [] ∧
        (mishap.IsClean → after.machine = world.machine)) ∨
      ∃ path location between, result = .ok path ∧ madeIn trace = [path] ∧
        (mishap.IsClean → between = world.machine) ∧
        FreshFile world.names root ending between after.machine path location := by
  induction attempts generalizing world trace with
  | zero =>
    obtain ⟨rfl, rfl, rfl⟩ := runs_pure ran
    exact .inl ⟨_, rfl, rfl, fun _ => rfl⟩
  | succ attempts ih =>
    obtain ⟨named, rest, name, between, rfl, asked, later⟩ := ran.bind
    obtain ⟨rfl, rfl, given⟩ | ⟨_, _, ⟨⟩, _⟩ := runs_request asked
    have sameNames : between.names = world.names := by rw [given]; rfl
    have same : between.machine = world.machine := by rw [given]; rfl
    obtain ⟨first, others, whole, middle, rfl, placed, onward⟩ := later.bind
    obtain ⟨quiet, ⟨cause, rfl, clean⟩ | ⟨path, rfl, rfl, isWhole⟩⟩ := runs_absolute placed
    · obtain ⟨rfl, rfl, rfl⟩ := runs_pure onward
      refine .inl ⟨cause, rfl, ?_, fun clear => (clean clear).trans same⟩
      rw [List.append_nil, madeIn_append, quiet]
      rfl
    · obtain ⟨second, last, created, final, rfl, creation, went⟩ := onward.bind
      rw [madeIn_append, madeIn_append, madeIn_append, quiet]
      rcases runs_createFile creation with
        ⟨cause, rfl, none, clean⟩ | ⟨disk, rfl, made, created, left⟩
      · have unmade (clear : mishap.IsClean) : final.machine = world.machine :=
          (clean clear).trans same
        rw [none]
        cases cause with
        | alreadyExists =>
          have later := ih went
          rw [(World.Runs.fixed creation).1, sameNames] at later
          rcases later with ⟨cause, rfl, quiet, clean⟩ |
            ⟨other, location, between, rfl, made, clean, fresh⟩
          · exact .inl ⟨cause, rfl, quiet, fun clear => (clean clear).trans (unmade clear)⟩
          · exact .inr ⟨other, location, between, rfl, made,
              fun clear => (clean clear).trans (unmade clear), fresh⟩
        | _ =>
          obtain ⟨rfl, rfl, rfl⟩ := runs_pure went
          exact .inl ⟨_, rfl, rfl, unmade⟩
      · obtain ⟨rfl, rfl, rfl⟩ := runs_pure went
        obtain ⟨location, leads, free, put⟩ := Disk.createFile_eq_ok created
        have ends : (Path.mk (Scratch.filePrefix ++ world.names world.named ++ ending)).EndsIn
            ending := Path.endsIn_append _ _ plain
        refine .inr ⟨path, location, middle.machine, rfl, by rw [made]; rfl, fun _ => same,
          ⟨isWhole.1, isWhole.endsIn (ends.join root), leads, free, by rw [left, put]⟩,
          world.named, isWhole⟩

theorem runs_makeDirectories
    (ran : Runs mishap world (Program.request (.makeDirectories path)) trace outcome after) :
    madeIn trace = [] ∧
      (mishap.IsClean → Touches (fun _ => False) (path.OnWay world.machine.working)
        world.machine after.machine) ∧
      (outcome = .ok () →
        world.machine.disk.makeDirectories world.machine.working path =
            (.ok (), after.machine.disk) ∧
          after.machine = world.machine.withDisk after.machine.disk) := by
  refine ⟨ran.madeIn_eq_nil (.request _ fun _ => Request.noConfusion), ?_⟩
  rcases runs_request ran with ⟨rfl, answered, left⟩ | ⟨cause, left, refusal, harm, rfl, rfl⟩
  · have grown := Machine.touches_withDisk (Disk.changesOnly_makeDirectories world.machine.disk
      world.machine.working path)
    cases done : world.machine.disk.makeDirectories world.machine.working path with
    | mk result disk =>
      rw [done] at grown
      simp only [World.answer, withMachine, Machine.attempt, done] at answered left
      subst answered left
      exact ⟨fun _ => grown, fun success => by rw [success]; exact ⟨rfl, rfl⟩⟩
  · cases refusal
    exact ⟨fun clean => clean _ _ _ harm ▸ .refl _, fun impossible => by cases impossible⟩

/-- Whatever happens, a new file is the only one that is made, and it is made last. -/
theorem ends_newFile (scratch : Scratch) (ending : OsText) (plain : slashByte ∉ ending.toList)
    (ended : Ends mishap world (scratch.newFile ending) trace result after) :
    (∃ failure, result = .error failure ∧ madeIn trace = [] ∧
        (mishap.IsClean → Touches (fun _ => False) (scratch.root.OnWay world.machine.working)
          world.machine after.machine)) ∨
      ∃ path location between, result = .ok path ∧ madeIn trace = [path] ∧
        FreshFile world.names scratch.root ending between after.machine path location ∧
        (mishap.IsClean → Touches (fun _ => False) (scratch.root.OnWay world.machine.working)
          world.machine between) := by
  obtain ⟨first, rest, outcome, middle, rfl, rooted, later⟩ := ended.bind
  obtain ⟨answer, asked, rfl⟩ := ends_orInaccessible rooted
  obtain ⟨quiet, grown, -⟩ := runs_makeDirectories asked
  rw [madeIn_append, quiet, List.nil_append]
  rcases answer with cause | ⟨⟩
  · obtain ⟨rfl, rfl, rfl⟩ := later
    exact .inl ⟨_, rfl, rfl, grown⟩
  · obtain ⟨named, made, rfl⟩ := ends_orInaccessible later
    rcases runs_freshFile scratch.root ending plain nameAttempts made with
      ⟨cause, rfl, none, clean⟩ | ⟨path, location, between, rfl, only, clean, fresh⟩
    · exact .inl ⟨_, rfl, none, fun clear => clean clear ▸ grown clear⟩
    · rw [(World.Runs.fixed asked).1] at fresh
      exact .inr ⟨path, location, between, rfl, only, fresh,
        fun clear => clean clear ▸ grown clear⟩

theorem NewFile.touches (new : NewFile before later ending path location) :
    Touches (· = location) missing before later := by
  rw [new.made]
  exact Machine.touches_withDisk (Disk.changesOnly_put _ _ _)

theorem discard_found (found : world.machine.find path = .ok (location, entry))
    (thing : entry ≠ .directory) :
    (world.run (Task.requestAll [.discardFile path])).2.machine =
      world.machine.withDisk (world.machine.disk.erase location) := by
  have after : (world.run (Task.requestAll [.discardFile path])).2.machine =
      (world.machine.change
        (world.machine.disk.removeFile world.machine.working path)).2 := rfl
  rw [after, Disk.removeFile_of_find found thing]
  rfl

theorem runs_discardFile
    (ran : Runs mishap world (Task.requestAll [.discardFile path]) trace value after) :
    madeIn trace = [] ∧ after = (world.run (Task.requestAll [.discardFile path])).2 := by
  have steady : (Task.requestAll [.discardFile path]).Asks Request.IsSteady :=
    isSteady_discards (by simp)
  refine ⟨ran.madeIn_eq_nil (Task.asks_requestAll _ ?_), ?_⟩
  · simp [Request.MakesNoFile]
  · rw [(ran.steady steady).2]

theorem touches_discardFile (free : before.disk.get? location = none)
    (found : world.machine.find path = .ok (location, .file contents executable))
    (touches : Touches (fun other => places other ∨ other = location) missing before
      world.machine) :
    Touches places missing before
      (world.run (Task.requestAll [.discardFile path])).2.machine := by
  rw [discard_found found nofun]
  have notRoot := Disk.ne_root_of_not_directory before.disk (by rw [free]; exact nofun)
  refine (touches.trans ((Machine.touches_withDisk (Disk.changesOnly_erase _ location)).weaken
    (fun _ => .inr) fun _ => id)).restored ?_ ?_
  · rintro _ rfl
    exact free
  · rintro _ rfl
    simp [Machine.withDisk, Disk.get?_erase, notRoot]

theorem ends_sourceFile (scratch : Scratch) (text : String)
    (ended : Ends mishap world (scratch.sourceFile text) trace result after) :
    (∃ failure, result = .error failure ∧
        (∀ path ∈ madeIn trace, after.machine.isFile path = false) ∧
        (mishap.IsClean → Touches (fun _ => False) (scratch.root.OnWay world.machine.working)
          world.machine after.machine)) ∨
      ∃ path location, result = .ok path ∧ madeIn trace = [path] ∧ path.isAbsolute = true ∧
        path.EndsIn ".rs" ∧
        (mishap.IsClean → world.machine.disk.get? location = none ∧
          (∃ executable,
            after.machine.find path = .ok (location, .file text.toUTF8 executable)) ∧
          Touches (· = location) (scratch.root.OnWay world.machine.working) world.machine
            after.machine ∧
          ∃ number, Path.IsWhole world.machine.working
            (scratch.root.child (Scratch.filePrefix ++ world.names number ++ ".rs")) path) := by
  obtain ⟨first, rest, outcome, middle, rfl, opened, later⟩ := ended.bind
  rcases ends_newFile scratch ".rs" (by decide) opened with
    ⟨failure, rfl, none, grown⟩ | ⟨path, location, between, rfl, made, fresh, grown⟩
  · obtain ⟨rfl, rfl, rfl⟩ := later
    rw [List.append_nil]
    exact .inl ⟨failure, rfl, by simp [none], grown⟩
  obtain ⟨second, last, outcome, final, rfl, wrote, went⟩ := Ends.bind later
  obtain ⟨asked, given, left, rfl, writing, gaveUp⟩ := ends_onFailure wrote
  obtain ⟨answered, request, rfl⟩ := ends_orInaccessible writing
  have quiet : madeIn asked = [] :=
    request.madeIn_eq_nil (.request _ fun _ => Request.noConfusion)
  rcases runs_change rfl request with ⟨cause, rfl, clean⟩ | ⟨disk, written, rfl, done⟩
  · obtain ⟨silent, rfl⟩ := runs_discardFile gaveUp
    obtain ⟨rfl, rfl, rfl⟩ := went
    refine .inl ⟨_, rfl, ?_, fun clear => ?_⟩
    · simp only [madeIn_append, made, quiet, silent, List.append_nil, List.mem_singleton]
      rintro path rfl
      exact (discard_cases left (fresh.ends.not_endsInSlash (c := 's'.toUInt8) (by rfl))
        fresh.absolute).1
    · rw [← clean clear] at fresh
      exact touches_discardFile ((grown clear).disk.free id fresh.free) fresh.found
        (((grown clear).more.trans fresh.touches).weaken (fun _ => .inr) fun _ => id)
  · obtain ⟨rfl, rfl⟩ := gaveUp
    obtain ⟨rfl, rfl, rfl⟩ := ends_pure went
    refine .inr ⟨path, location, rfl, ?_, fresh.absolute, fresh.ends, fun clear => ?_⟩
    · rw [List.append_nil, List.append_nil, madeIn_append, made, quiet, List.append_nil]
    · obtain ⟨leads, stands⟩ := (Machine.find_eq_ok_iff ..).mp fresh.found
      obtain ⟨executable, -, rfl, found⟩ :=
        find_write leads (by simp [stands]) (by simp [stands]) written
      obtain ⟨number, isWhole⟩ := fresh.named
      refine ⟨(grown clear).disk.free id fresh.free, ⟨executable, by rw [done]; exact found⟩, ?_,
        number, isWhole.of_stays (grown clear).stays⟩
      rw [done]
      exact ((grown clear).more.trans fresh.touches).trans
        (Machine.touches_withDisk (Disk.changesOnly_put _ _ _))

/-- Moving a file or a link onto a file leaves a file there or the link, and changes nothing else.
Where it fails, only the file it was to be moved to has changed. -/
theorem ends_move (clean : mishap.IsClean)
    (held : world.machine.find source = .ok (location, entry)) (thing : entry ≠ .directory)
    (reserved : world.machine.find target = .ok (goal, .file old mode)) (apart : goal ≠ location)
    (ended : Ends mishap world (Scratch.move source target) trace result after) :
    ((∃ failure, result = .error failure) ∧
        Touches (· = goal) (fun _ => False) world.machine after.machine ∧
        ∃ contents executable,
          after.machine.find target = .ok (goal, .file contents executable)) ∨
      result = .ok () ∧
        Touches (fun other => source.Names world.machine.working other ∨ other = goal)
          (fun _ => False) world.machine after.machine ∧
        ((∃ contents executable,
            after.machine.find target = .ok (goal, .file contents executable)) ∨
          after.machine.find target = .ok (goal, entry)) := by
  have leads := (Machine.find_eq_ok_iff ..).mp held |>.1
  have names (other : Location) (same : other = location) :
      source.Names world.machine.working other := same ▸ Path.names_of_locate leads
  obtain ⟨first, rest, answered, middle, rfl, moving, later⟩ := ends_request_bind ended
  rcases runs_change rfl moving with ⟨cause, rfl, same⟩ | ⟨disk, renamed, rfl, left⟩
  · obtain ⟨second, last, outcome, final, rfl, copied, went⟩ := Ends.bind later
    obtain ⟨answered, copying, rfl⟩ := ends_orInaccessible copied
    rw [← same clean] at held reserved leads names ⊢
    rcases runs_change rfl copying with ⟨cause, rfl, same⟩ | ⟨disk, wrote, rfl, left⟩
    · obtain ⟨-, rfl, rfl⟩ := went
      rw [same clean]
      exact .inl ⟨⟨_, rfl⟩, .refl _, _, _, reserved⟩
    · obtain ⟨_, contents, executable, -, found, leadsStill⟩ := find_copy reserved wrote
      obtain ⟨leadsTarget, stands⟩ := (Machine.find_eq_ok_iff ..).mp reserved
      have aimed := Machine.aim_of_locate leadsTarget (by simp [stands])
      have copied : Touches (· = goal) (fun _ => False) middle.machine final.machine := by
        rw [left]
        exact Machine.touches_withDisk ((Disk.changesOnly_copy wrote).weaken
          (fun other here => Except.ok.inj (here.symm.trans aimed)) fun _ => id)
      have leadsNow := leadsStill _ _ leads
      rw [← left] at found leadsNow
      obtain ⟨answered, removing, rfl⟩ := ends_orInaccessible went
      rcases runs_change rfl removing with ⟨cause, rfl, same⟩ | ⟨disk, removed, rfl, leftLast⟩
      · rw [same clean]
        exact .inl ⟨⟨_, rfl⟩, copied, _, _, found⟩
      · have plain := Disk.not_endsInSlash_of_find held thing
        obtain ⟨noFolder, rfl⟩ := Disk.erased_of_removeFile plain leadsNow removed
        rw [leftLast]
        exact .inr ⟨rfl, (copied.weaken (fun _ => .inr) fun _ => id).trans
            ((Machine.touches_withDisk (Disk.changesOnly_erase _ _)).weaken
              (fun other same => .inl (names other same)) fun _ => id),
          .inl ⟨_, _, find_erase found noFolder apart⟩⟩
  · obtain ⟨-, rfl, rfl⟩ := ends_pure later
    obtain ⟨leadsTarget, -⟩ := (Machine.find_eq_ok_iff ..).mp reserved
    rw [left]
    refine .inr ⟨rfl, Machine.touches_withDisk ((Disk.changesOnly_rename renamed).weaken
      (fun other => .imp_right fun there => ?_) fun _ => id),
      .inr (find_rename held reserved apart renamed)⟩
    exact there.eq (Path.names_of_locate leadsTarget)

theorem makesNoFile_move (source target : Path) :
    (Scratch.move source target).Asks Request.MakesNoFile := by
  refine .bind (.lift (.request _ fun _ => Request.noConfusion)) fun moved => ?_
  cases moved with
  | ok done => exact .pure _ _
  | error cause =>
    refine .bind (.orInaccessible _ (.request _ fun _ => Request.noConfusion)) fun _ => ?_
    exact .orInaccessible _ (.request _ fun _ => Request.noConfusion)

/-- What a file that was built, or a link in its place, leaves where it was moved to. -/
def Delivered (before after : Machine) (built path : Path) (location : Location) : Prop :=
  (∃ contents executable, after.find path = .ok (location, .file contents executable)) ∨
    before.IsLink built ∧ ∃ target, after.find path = .ok (location, .link target)

/-- A file is moved to a place that was reserved for it. Where nothing stood before the place was
reserved, the file cannot have been. -/
theorem ends_reservedMove {reserving : World} (clean : mishap.IsClean)
    (stood : world.machine.isFile built = true)
    (free : world.machine.disk.get? location = none)
    (reserve : Touches (· = location) made world.machine reserving.machine)
    (reserved : reserving.machine.find path = .ok (location, .file old mode))
    (moving : Ends mishap reserving (Scratch.move built path) trace result after) :
    ((∃ failure, result = .error failure) ∧
        Touches (· = location) made world.machine after.machine ∧
        ∃ contents executable,
          after.machine.find path = .ok (location, .file contents executable)) ∨
      result = .ok () ∧
        Touches (fun other => built.Names world.machine.working other ∨ other = location) made
          world.machine after.machine ∧
        Delivered world.machine after.machine built path location := by
  obtain ⟨place, entry, held, thing, kind⟩ := Machine.found_of_isFile stood
  have apart : place ≠ location := by
    rintro rfl
    rw [((Machine.find_eq_ok_iff ..).mp held).2] at free
    cases free
  have heldStill := reserve.find held apart (by rintro _ rfl; rw [free]; exact nofun)
  rcases ends_move clean heldStill thing reserved apart.symm moving with
    ⟨failed, touches, left⟩ | ⟨done, touches, left⟩
  · exact .inl ⟨failed, reserve.trans (touches.weaken (fun _ => id) fun _ => False.elim), left⟩
  · refine .inr ⟨done, (reserve.weaken (fun _ => .inr) fun _ => id).trans
      (touches.weaken (fun other => .imp_left (·.of_stays reserve.stays)) fun _ => False.elim), ?_⟩
    refine left.elim .inl fun found => ?_
    rcases kind with ⟨contents, executable, rfl⟩ | ⟨target, rfl⟩
    · exact .inl ⟨_, _, found⟩
    · exact .inr ⟨⟨place, target, held⟩, target, found⟩

/-- An archive that was handed on stands where nothing stood, and the place it was taken from
is the only other one that has changed. -/
structure Relocated (names : Nat → String) (root built : Path) (before after : Machine)
    (path : Path) (location : Location) : Prop where
  named : ∃ number, Path.IsWhole before.working
    (root.child (Scratch.filePrefix ++ names number ++ ".a")) path
  stood : before.isFile built = true
  free : before.disk.get? location = none
  found : Delivered before after built path location
  touches : Touches (fun other => built.Names before.working other ∨ other = location)
    (root.OnWay before.working) before after

theorem Relocated.keepsDirectories {before left : Machine}
    (relocated : Relocated given root built before left path place) :
    Disk.KeepsDirectories before.disk left.disk := by
  refine relocated.touches.disk.keepsDirectories fun other changed folder => ?_
  rcases changed with leads | rfl
  · obtain ⟨here, entry, found, thing, -⟩ := Machine.found_of_isFile relocated.stood
    obtain ⟨leadsToo, stands⟩ := (Machine.find_eq_ok_iff ..).mp found
    rw [leads.eq (Path.names_of_locate leadsToo), stands] at folder
    exact thing (Option.some.inj folder)
  · cases relocated.free.symm.trans folder

/-- A relocation first looks for the file. Where there is none nothing is done. -/
theorem ends_relocate_cases (scratch : Scratch) (built : Path)
    (ended : Ends mishap world (scratch.relocate built) trace result after) :
    ∃ rest, trace = ⟨.isFile built, world.machine.isFile built, world.machine, world.machine⟩ ::
        rest ∧
      (world.machine.isFile built = false ∧ rest = [] ∧
          result = .error (.archiveMissing built) ∧ after = world ∨
        world.machine.isFile built = true ∧
          Ends mishap world (do
            let target ← scratch.archivePath
            (Scratch.move built target).onFailure [.discardFile target]
            return target) rest result after) := by
  obtain ⟨first, rest, isFile, middle, rfl, asked, later⟩ := ends_request_bind ended
  obtain ⟨rfl, found, same⟩ | ⟨_, _, refusal, _⟩ := runs_request asked
  swap
  · cases refusal
  obtain rfl : world = middle := same.symm
  rw [show world.machine.isFile built = isFile from found.symm]
  refine ⟨rest, rfl, ?_⟩
  cases isFile with
  | true => exact .inr ⟨rfl, later⟩
  | false =>
    obtain ⟨second, last, outcome, final, rfl, failed, went⟩ := Ends.bind later
    obtain ⟨rfl, rfl, rfl⟩ := ends_fail failed
    obtain ⟨rfl, rfl, rfl⟩ := went
    exact .inl ⟨rfl, rfl, rfl, rfl⟩

theorem ends_relocate (scratch : Scratch) (built : Path)
    (ended : Ends mishap world (scratch.relocate built) trace result after) :
    (∃ failure, result = .error failure ∧
        (∀ path ∈ madeIn trace, after.machine.isFile path = false) ∧
        (mishap.IsClean → Touches (fun _ => False) (scratch.root.OnWay world.machine.working)
          world.machine after.machine)) ∨
      ∃ path location, result = .ok path ∧ madeIn trace = [path] ∧
        (⟨.isFile built, true, world.machine, world.machine⟩ : Exchange) ∈ trace ∧
        (mishap.IsClean →
          Relocated world.names scratch.root built world.machine after.machine path location) := by
  obtain ⟨rest, rfl, ⟨-, rfl, rfl, rfl⟩ | ⟨isFile, later⟩⟩ := ends_relocate_cases _ _ ended
  · exact .inl ⟨_, rfl, nofun, fun _ => .refl _⟩
  have looked : madeIn (⟨.isFile built, world.machine.isFile built, world.machine,
      world.machine⟩ :: rest) = madeIn rest := rfl
  have member : (⟨.isFile built, true, world.machine, world.machine⟩ : Exchange) ∈
      ⟨.isFile built, world.machine.isFile built, world.machine, world.machine⟩ :: rest := by
    rw [isFile]
    exact List.mem_cons_self
  rw [looked]
  obtain ⟨second, others, outcome, reserving, rfl, reserved, went⟩ := Ends.bind later
  rcases ends_newFile scratch ".a" (by decide) reserved with
    ⟨failure, rfl, none, grown⟩ | ⟨path, location, between, rfl, made, fresh, grown⟩
  · obtain ⟨rfl, rfl, rfl⟩ := went
    rw [List.append_nil, none]
    exact .inl ⟨failure, rfl, nofun, grown⟩
  obtain ⟨third, last, outcome, final, rfl, moved, wentOn⟩ := Ends.bind went
  obtain ⟨asked, given, left, rfl, moving, gaveUp⟩ := ends_onFailure moved
  have silent : madeIn asked = [] := moving.madeIn_eq_nil (makesNoFile_move built path)
  have reserve (clear : mishap.IsClean) : Touches (· = location)
      (scratch.root.OnWay world.machine.working) world.machine reserving.machine :=
    (grown clear).more.trans fresh.touches
  have free (clear : mishap.IsClean) : world.machine.disk.get? location = none :=
    (grown clear).disk.free id fresh.free
  have after (clear : mishap.IsClean) :=
    ends_reservedMove clear isFile (free clear) (reserve clear) fresh.found moving
  cases outcome with
  | error failure =>
    obtain ⟨silentToo, rfl⟩ := runs_discardFile gaveUp
    obtain ⟨rfl, rfl, rfl⟩ := wentOn
    refine .inl ⟨failure, rfl, ?_, fun clear => ?_⟩
    · simp only [madeIn_append, made, silent, silentToo, List.append_nil, List.mem_singleton]
      rintro path rfl
      exact (discard_cases left (fresh.ends.not_endsInSlash (c := 'a'.toUInt8) (by rfl))
        fresh.absolute).1
    · rcases after clear with ⟨-, touches, contents, executable, stands⟩ | ⟨⟨⟩, -⟩
      exact touches_discardFile (free clear) stands (touches.weaken (fun _ => .inr) fun _ => id)
  | ok done =>
    obtain ⟨rfl, rfl⟩ := gaveUp
    obtain ⟨rfl, rfl, rfl⟩ := ends_pure wentOn
    refine .inr ⟨path, location, rfl, ?_, member, fun clear => ?_⟩
    · rw [List.append_nil, List.append_nil, madeIn_append, made, silent, List.append_nil]
    · obtain ⟨⟨failure, ⟨⟩⟩, -⟩ | ⟨-, touches, found⟩ := after clear
      obtain ⟨number, isWhole⟩ := fresh.named
      exact ⟨⟨number, isWhole.of_stays (grown clear).stays⟩, isFile, free clear, found, touches⟩

end World

end FragmentBuild
