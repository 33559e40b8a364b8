import FragmentBuild.Proofs.Cleanup

/-! Moving an archive to a place among the temporary files. Whatever fails on the way, the
archive is in one of the two places and not in both. -/
namespace FragmentBuild

/-- A refused request has done nothing, except that a copy may have been left unfinished: then
the file that it was to make may hold anything. -/
def Mishap.SparesAllButCopies (mishap : Mishap) : Prop :=
  ∀ request before after, mishap request before after → after = before ∨
    ∃ source target location contents executable, request = .copy source target ∧
      before.aim target = .ok location ∧ before.disk.get? location ≠ some .directory ∧
      after = before.withDisk (before.disk.put location (.file contents executable))

theorem Mishap.IsClean.sparesAllButCopies {mishap : Mishap} (clean : mishap.IsClean) :
    mishap.SparesAllButCopies := fun request before after harm =>
  .inl (clean request before after harm)

def Request.CopiesNothing (request : Request) : Prop :=
  ∀ source target, request ≠ .copy source target

namespace Machine

variable {places made : Location → Prop} {before middle after : Machine}

/-- The file at one location may have been written to, and nothing else has changed. -/
structure Rewritten (location : Location) (before after : Machine) : Prop where
  touches : Touches (· = location) (fun _ => False) before after
  stands : ∃ contents executable, after.disk.get? location = some (.file contents executable)

theorem Rewritten.refl {machine : Machine}
    (stands : machine.disk.get? location = some (.file contents executable)) :
    Rewritten location machine machine :=
  ⟨.refl _, _, _, stands⟩

theorem rewritten_put {machine : Machine}
    (thing : machine.disk.get? location ≠ some .directory) (contents : ByteArray)
    (executable : Bool) :
    Rewritten location machine
      (machine.withDisk (machine.disk.put location (.file contents executable))) := by
  have notRoot := Disk.ne_root_of_not_directory machine.disk thing
  refine ⟨touches_withDisk (Disk.changesOnly_put _ _ _), contents, executable, ?_⟩
  rw [withDisk, Disk.get?_put, if_neg notRoot, if_pos rfl]

theorem Rewritten.find (rewritten : Rewritten location before after)
    (found : before.find path = .ok (location, .file old mode)) :
    ∃ contents executable, after.find path = .ok (location, .file contents executable) := by
  obtain ⟨leads, there⟩ := (find_eq_ok_iff ..).mp found
  obtain ⟨contents, executable, stands⟩ := rewritten.stands
  refine ⟨contents, executable, (find_eq_ok_iff ..).mpr ⟨?_, stands⟩⟩
  exact rewritten.touches.locate leads (by rintro _ rfl; rw [there]; exact nofun)

theorem Rewritten.find_other (rewritten : Rewritten goal before after)
    (found : before.find path = .ok (location, entry)) (apart : location ≠ goal)
    (stood : before.disk.get? goal = some (.file old mode)) :
    after.find path = .ok (location, entry) :=
  rewritten.touches.find found apart (by rintro _ rfl; rw [stood]; exact nofun)

/-- A file has gone from one location to another, and nothing else has changed. -/
def Moved (location goal : Location) (file : DiskEntry) (before after : Machine) : Prop :=
  ∀ other, after.disk.get? other =
    if other = location then none else if other = goal then some file else before.disk.get? other

theorem Rewritten.moved (rewritten : Rewritten goal before after) (notRoot : location ≠ [])
    (stands : after.disk.get? goal = some file) :
    Moved location goal file before (after.withDisk (after.disk.erase location)) := by
  intro other
  rw [withDisk, Disk.get?_erase]
  by_cases isGoal : other = goal
  · rw [isGoal, if_pos rfl, stands]
    by_cases root : goal = []
    · rw [if_pos root, if_neg (root ▸ notRoot.symm), ← stands, root, Disk.get?_root]
    · rw [if_neg root]
  · have same : after.disk.get? other = before.disk.get? other :=
      (rewritten.touches.disk other).resolve_right fun changed =>
        changed.elim isGoal fun impossible => impossible.1
    rw [if_neg isGoal, same]
    by_cases root : other = []
    · rw [if_pos root, if_neg (root ▸ notRoot.symm), root, Disk.get?_root]
    · rw [if_neg root]

theorem moved_rename {machine : Machine} (notRoot : location ≠ []) (notRootToo : goal ≠ [])
    (apart : goal ≠ location) (file : DiskEntry) :
    Moved location goal file machine
      (machine.withDisk ((machine.disk.erase location).put goal file)) := by
  intro other
  rw [withDisk, Disk.get?_put, Disk.get?_erase]
  by_cases root : other = []
  · subst root
    rw [if_pos rfl, if_neg notRoot.symm, if_neg notRootToo.symm, Disk.get?_root]
  rw [if_neg root, if_neg root]
  by_cases isGoal : other = goal
  · rw [if_pos isGoal, if_neg (isGoal ▸ apart), if_pos isGoal]
  · rw [if_neg isGoal, if_neg isGoal]

end Machine

namespace World

open Machine (Touches Rewritten)

variable {mishap : Mishap} {world after : World} {trace : List Exchange}

theorem Runs.restrict {program : Program α} (asks : program.Asks allowed)
    (ran : Runs mishap world program trace value after) :
    Runs (fun request before left => allowed request ∧ mishap request before left) world program
      trace value after := by
  induction ran with
  | done => exact .done
  | answered ran ih => exact .answered (ih (asks.2 _))
  | refused refusal harm ran ih => exact .refused refusal ⟨asks.1, harm⟩ (ih (asks.2 _))

theorem Runs.cleaned {program : Program α} (spares : mishap.SparesAllButCopies)
    (asks : program.Asks Request.CopiesNothing)
    (ran : Runs mishap world program trace value after) :
    ∃ cleaner : Mishap, cleaner.IsClean ∧ Runs cleaner world program trace value after := by
  refine ⟨_, ?_, ran.restrict asks⟩
  rintro request before left ⟨noCopy, harm⟩
  rcases spares _ _ _ harm with same | ⟨source, target, _, _, _, isCopy, _⟩
  · exact same
  · exact absurd isCopy (noCopy source target)

theorem copiesNothing_newFile (scratch : Scratch) (ending : OsText) :
    (scratch.newFile ending).Asks Request.CopiesNothing :=
  (scratch.makes_newFile ending).mono fun request isMaking source target same => by
    subst same
    exact isMaking

theorem ends_newFile_ok (clean : mishap.IsClean) (scratch : Scratch) (ending : OsText)
    (plain : slashByte ∉ ending.toList)
    (ended : Ends mishap world (scratch.newFile ending) trace (.ok path) after) :
    ∃ disk location, world.machine.disk.makeDirectories world.machine.working scratch.root =
        (.ok (), disk) ∧
      FreshFile world.names scratch.root ending (world.machine.withDisk disk) after.machine path
        location := by
  obtain ⟨first, rest, outcome, middle, rfl, rooted, later⟩ := ended.bind
  obtain ⟨answer, asked, rfl⟩ := ends_orInaccessible rooted
  obtain ⟨-, -, grown⟩ := runs_makeDirectories asked
  rcases answer with cause | ⟨⟩
  · obtain ⟨-, impossible, -⟩ := later
    cases impossible
  · obtain ⟨made, left⟩ := grown rfl
    obtain ⟨named, ran, same⟩ := ends_orInaccessible later
    rcases runs_freshFile scratch.root ending plain nameAttempts ran with
      ⟨cause, rfl, -, -⟩ | ⟨other, location, between, rfl, -, unchanged, fresh⟩
    · cases same
    · cases same
      rw [(Runs.fixed asked).1, unchanged clean, left] at fresh
      exact ⟨_, location, made, fresh⟩

/-- A copy is finished, or it has spoiled at most the file that it was to make. -/
theorem runs_copy (spares : mishap.SparesAllButCopies)
    (held : world.machine.find source = .ok (location, .file contents executable))
    (reserved : world.machine.find target = .ok (goal, .file old mode))
    (ran : Runs mishap world (Program.request (.copy source target)) trace outcome after) :
    Rewritten goal world.machine after.machine ∧
      ((∃ cause, outcome = .error cause) ∨ outcome = .ok () ∧
        after.machine.find target = .ok (goal, .file contents executable)) := by
  obtain ⟨leads, stands⟩ := (Machine.find_eq_ok_iff ..).mp reserved
  have aimed := Machine.aim_of_locate leads (by simp [stands])
  rcases runs_request ran with ⟨-, told, left⟩ | ⟨cause, left, refusal, harm, rfl, -⟩
  · rcases change_cases world.machine
      (world.machine.disk.copy world.machine.working source target) with
      ⟨cause, -, refused⟩ | ⟨disk, copied, changed⟩
    · simp only [answer, refused, withMachine] at told left
      subst told left
      exact ⟨.refl stands, .inl ⟨cause, rfl⟩⟩
    · simp only [answer, changed, withMachine] at told left
      subst told left
      obtain ⟨_, _, _, reached, found, -⟩ := find_copy reserved copied
      cases (Machine.reach_of_find held).symm.trans reached
      have only : Touches (· = goal) (fun _ => False) world.machine (world.machine.withDisk disk) :=
        Machine.touches_withDisk ((Disk.changesOnly_copy copied).weaken
          (fun other here => Except.ok.inj (here.symm.trans aimed)) fun _ => id)
      exact ⟨⟨only, _, _, ((Machine.find_eq_ok_iff ..).mp found).2⟩, .inr ⟨rfl, found⟩⟩
  · cases refusal
    refine ⟨?_, .inl ⟨cause, rfl⟩⟩
    rcases spares _ _ _ harm with same | ⟨_, _, place, spoiled, kind, same, there, thing, spoils⟩
    · rw [same]
      exact .refl stands
    · cases same
      cases there.symm.trans aimed
      rw [spoils]
      exact Machine.rewritten_put thing spoiled kind

/-- A move is done, by whichever way, or the file stands where it stood. -/
theorem ends_move_whole (spares : mishap.SparesAllButCopies)
    (held : world.machine.find source = .ok (location, .file contents executable))
    (reserved : world.machine.find target = .ok (goal, .file old mode)) (apart : goal ≠ location)
    (ended : Ends mishap world (Scratch.move source target) trace result after) :
    (result = .ok () ∧ after.machine.find target = .ok (goal, .file contents executable) ∧
        Machine.Moved location goal (.file contents executable) world.machine after.machine ∧
        Touches (fun other => other = location ∨ other = goal) (fun _ => False) world.machine
          after.machine) ∨
      (∃ failure, result = .error failure) ∧ Rewritten goal world.machine after.machine := by
  obtain ⟨-, stands⟩ := (Machine.find_eq_ok_iff ..).mp held
  obtain ⟨leads, standsToo⟩ := (Machine.find_eq_ok_iff ..).mp reserved
  have notRoot := Disk.ne_root_of_not_directory world.machine.disk (by rw [stands]; exact nofun)
  have notRootToo :=
    Disk.ne_root_of_not_directory world.machine.disk (by rw [standsToo]; exact nofun)
  obtain ⟨first, rest, answered, middle, rfl, moving, later⟩ := ends_request_bind ended
  obtain ⟨cleaner, clean, moving⟩ := moving.cleaned spares
    (.request _ fun _ _ => Request.noConfusion)
  rcases runs_change rfl moving with ⟨cause, rfl, same⟩ | ⟨disk, renamed, rfl, left⟩
  · rw [← same clean] at held reserved standsToo ⊢
    obtain ⟨second, last, outcome, final, rfl, copied, went⟩ := Ends.bind later
    obtain ⟨answered, copying, rfl⟩ := ends_orInaccessible copied
    obtain ⟨rewritten, ⟨cause, rfl⟩ | ⟨rfl, found⟩⟩ := runs_copy spares held reserved copying
    · obtain ⟨-, rfl, rfl⟩ := went
      exact .inr ⟨⟨_, rfl⟩, rewritten⟩
    have heldStill := rewritten.find_other held apart.symm standsToo
    obtain ⟨answered, removing, rfl⟩ := ends_orInaccessible went
    obtain ⟨cleaner, clean, removing⟩ := removing.cleaned spares
      (.request _ fun _ _ => Request.noConfusion)
    rcases runs_change rfl removing with ⟨cause, rfl, same⟩ | ⟨disk, removed, rfl, left⟩
    · exact .inr ⟨⟨_, rfl⟩, same clean ▸ rewritten⟩
    have plain := Disk.not_endsInSlash_of_find held (by simp)
    obtain ⟨noFolder, rfl⟩ :=
      Disk.erased_of_removeFile plain ((Machine.find_eq_ok_iff ..).mp heldStill).1 removed
    rw [left]
    refine .inl ⟨rfl, find_erase found noFolder apart,
      rewritten.moved notRoot ((Machine.find_eq_ok_iff ..).mp found).2, ?_⟩
    exact (rewritten.touches.weaken (fun _ => .inr) fun _ => id).trans
      ((Machine.touches_withDisk (Disk.changesOnly_erase _ _)).weaken (fun _ => .inl) fun _ => id)
  · obtain ⟨-, rfl, rfl⟩ := ends_pure later
    have found := find_rename held reserved apart renamed
    obtain ⟨_, _, _, heldToo, -, leadsThere, -, rfl⟩ := Disk.rename_eq_ok renamed
    cases held.symm.trans heldToo
    cases leads.symm.trans leadsThere
    rw [if_neg apart.symm] at found left
    rw [left]
    refine .inl ⟨rfl, found, Machine.moved_rename notRoot notRootToo apart _, ?_⟩
    exact Machine.touches_withDisk (((Disk.changesOnly_erase _ _).weaken (fun _ => .inl)
      fun _ => id).trans ((Disk.changesOnly_put _ _ _).weaken (fun _ => .inr) fun _ => id))

end World

theorem Disk.isPresent_eq_false {disk : Disk}
    (free : ∀ location, path.Names working location → disk.get? location = none) :
    disk.isPresent working path = false := by
  unfold isPresent
  split
  · rename_i thing reached
    obtain ⟨aimed, stands⟩ := (reach_eq_ok_iff ..).mp reached
    obtain ⟨here, leads, followed⟩ := (aim_eq_ok_iff ..).mp aimed
    have nothing := free here (Path.names_of_locate leads)
    cases (follow_of_not_link _ (by simp [nothing])).symm.trans followed
    rw [nothing] at stands
    cases stands
  · rfl

/-- A file was moved from where it was built to a new place among the temporary files. Apart from
these two places the disk is as it is once the directories are made that lead to the temporary
files: it does not tell which way the file took. -/
structure Relocation (root built : Path) (place : Location) (file : DiskEntry)
    (before after : Machine) (path : Path) (location : Location) : Prop where
  inRoot : ∃ folder name, root.Names before.working folder ∧ location = folder ++ [name] ∧
    Path.IsPlainName name ∧ (root.child name).IsWhole before.working path
  wasNew : before.disk.isPresent before.working path = false ∧ before.disk.get? location = none
  found : after.find path = .ok (location, file)
  isGone : after.disk.isPresent after.working built = false
  outcome : ∃ disk, before.disk.makeDirectories before.working root = (.ok (), disk) ∧
    ∀ other, after.disk.get? other =
      if other = place then none else if other = location then some file else disk.get? other
  others : Machine.Touches (fun other => other = place ∨ other = location)
    (root.OnWay before.working) before after

namespace Machine

variable {before reserved after : Machine} {disk : Disk}

theorem touches_makeDirectories
    (made : before.disk.makeDirectories before.working root = (.ok (), disk)) :
    Touches (fun _ => False) (root.OnWay before.working) before (before.withDisk disk) := by
  have changes := Disk.changesOnly_makeDirectories before.disk before.working root
  rw [made] at changes
  exact touches_withDisk changes

/-- A file that was moved to a place made for it has been relocated. -/
theorem Moved.relocation (moved : Moved place location file reserved after)
    (working : ∀ here, before.working = some here → IsPlainLocation here)
    (plain : ∀ number, '/' ∉ (names number).toList)
    (held : before.find built = .ok (place, file))
    (made : before.disk.makeDirectories before.working root = (.ok (), disk))
    (fresh : World.FreshFile names root ".a" (before.withDisk disk) reserved path location)
    (found : after.find path = .ok (location, file))
    (only : Touches (fun other => other = place ∨ other = location) (fun _ => False) reserved
      after) :
    Relocation root built place file before after path location := by
  have grown := touches_makeDirectories made
  have free := grown.disk.free id fresh.free
  have all : Touches (fun other => other = place ∨ other = location) (root.OnWay before.working)
      before after :=
    (grown.more.trans (fresh.touches.weaken (fun _ => .inr) fun _ => id)).trans
      (only.weaken (fun _ => id) fun _ => False.elim)
  obtain ⟨number, isWhole⟩ := fresh.named
  have isWhole := isWhole.of_stays grown.stays
  have names := (Path.names_of_locate ((find_eq_ok_iff ..).mp found).1).of_absolute isWhole.1
    before.working
  have missing := Disk.isPresent_eq_false fun other leads => leads.eq names ▸ free
  refine ⟨?_, ⟨missing, free⟩, found, ?_, ⟨disk, made, ?_⟩, all⟩
  · have noSlash : slashByte ∉ (OsText.ofText ".a").toList := by decide
    have plainName := isPlainName_scratchFile (plain number) noSlash
    obtain ⟨folder, leads, same⟩ :=
      (Path.names_child_iff root plainName).mp ((isWhole.names_iff working).mp names)
    exact ⟨folder, _, leads, same, plainName, isWhole⟩
  · refine Disk.isPresent_eq_false fun other leads => ?_
    have stood := Path.names_of_locate ((find_eq_ok_iff ..).mp held).1
    rw [(leads.of_stays all.stays).eq stood, moved place, if_pos rfl]
  · intro other
    rw [moved other, fresh.made]
    split
    · rfl
    split
    · rfl
    · rename_i elsewhere
      have put : Disk.ChangesOnly (· = location) (fun _ => False) disk
        (disk.put location (.file .empty false)) := Disk.changesOnly_put _ _ _
      exact (put other).resolve_right fun changed =>
        changed.elim elsewhere fun impossible => impossible.1

end Machine

namespace World

open Machine (Touches)

variable {mishap : Mishap} {world after : World} {trace : List Exchange}

/-- Where there is no file to relocate nothing is done. -/
theorem ends_relocate_missing (missing : world.machine.isFile built = false) (scratch : Scratch)
    (ended : Ends mishap world (scratch.relocate built) trace result after) :
    result = .error (.archiveMissing built) ∧ after = world := by
  obtain ⟨rest, -, ⟨-, -, failed, same⟩ | ⟨isFile, -⟩⟩ := ends_relocate_cases _ _ ended
  · exact ⟨failed, same⟩
  · cases missing.symm.trans isFile

/-- A file is relocated, or it stands where it stood and nothing is new but directories that lead
to the temporary files. -/
theorem ends_relocate_file (spares : mishap.SparesAllButCopies)
    (working : ∀ here, world.machine.working = some here → IsPlainLocation here)
    (plain : ∀ number, '/' ∉ (world.names number).toList)
    (held : world.machine.find built = .ok (place, .file contents executable)) (scratch : Scratch)
    (ended : Ends mishap world (scratch.relocate built) trace result after) :
    (∃ path location, result = .ok path ∧
        Relocation scratch.root built place (.file contents executable) world.machine
          after.machine path location) ∨
      (∃ failure, result = .error failure) ∧
        after.machine.find built = .ok (place, .file contents executable) ∧
        Touches (fun _ => False) (scratch.root.OnWay world.machine.working) world.machine
          after.machine := by
  obtain ⟨rest, -, ⟨missing, -⟩ | ⟨-, later⟩⟩ := ends_relocate_cases _ _ ended
  · cases missing.symm.trans (Machine.isFile_of_find held)
  obtain ⟨second, others, outcome, reserving, rfl, reserved, went⟩ := Ends.bind later
  obtain ⟨cleaner, clean, reserved⟩ := reserved.cleaned spares (copiesNothing_newFile scratch ".a")
  cases outcome with
  | error failure =>
    obtain ⟨rfl, rfl, rfl⟩ := went
    rcases ends_newFile scratch ".a" (by decide) reserved with
      ⟨_, -, -, grown⟩ | ⟨_, _, _, impossible, -⟩
    · exact .inr ⟨⟨failure, rfl⟩, (grown clean).find held id fun _ => False.elim, grown clean⟩
    · cases impossible
  | ok path =>
    obtain ⟨disk, location, made, fresh⟩ :=
      ends_newFile_ok clean scratch ".a" (by decide) reserved
    have grown := Machine.touches_makeDirectories made
    have free := grown.disk.free id fresh.free
    have apart : location ≠ place := by
      rintro rfl
      rw [((Machine.find_eq_ok_iff ..).mp held).2] at free
      cases free
    have reserve : Touches (· = location) (scratch.root.OnWay world.machine.working)
        world.machine reserving.machine := grown.more.trans fresh.touches
    have heldStill := reserve.find held apart.symm (by rintro _ rfl; rw [free]; exact nofun)
    obtain ⟨third, last, outcome, final, rfl, moved, wentOn⟩ := Ends.bind went
    obtain ⟨asked, given, left, rfl, moving, gaveUp⟩ := ends_onFailure moved
    rcases ends_move_whole spares heldStill fresh.found apart moving with
      ⟨rfl, found, swapped, only⟩ | ⟨⟨failure, rfl⟩, rewritten⟩
    · obtain ⟨rfl, rfl⟩ := gaveUp
      obtain ⟨rfl, rfl, rfl⟩ := ends_pure wentOn
      exact .inl ⟨path, location, rfl,
        swapped.relocation working plain held made fresh found only⟩
    · obtain ⟨-, rfl⟩ := runs_discardFile gaveUp
      obtain ⟨rfl, rfl, rfl⟩ := wentOn
      obtain ⟨spoiled, kind, found⟩ := rewritten.find fresh.found
      have restored : Touches (fun _ => False) _ world.machine _ :=
        touches_discardFile free found
          ((reserve.trans (rewritten.touches.weaken (fun _ => id) fun _ => False.elim)).weaken
            (fun _ => .inr) fun _ => id)
      exact .inr ⟨⟨failure, rfl⟩, restored.find held id fun _ => False.elim, restored⟩

end World

namespace Scratch

open World Machine

end Scratch

end FragmentBuild
