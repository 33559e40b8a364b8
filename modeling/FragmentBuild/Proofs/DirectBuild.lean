import FragmentBuild.Proofs.ScratchFiles
import FragmentBuild.Proofs.ToolCalls

/-! A build by one call of the compiler. The source file and the archive have paths of
their own, so removing one of them leaves the other. -/
namespace FragmentBuild

theorem Path.EndsIn.destination (ends : Path.EndsIn path ending)
    (letter : ending.toList.getLast? = some c) (notDot : c ≠ dotByte) (start : Location) :
    ∃ here stem, destination start (pieces path.text.toList) =
      here ++ [⟨stem ++ ending.toList⟩] := by
  obtain ⟨front, stem, shape⟩ := ends
  refine ⟨FragmentBuild.destination start front, stem, ?_⟩
  have last : (stem ++ ending.toList).getLast? = some c := by
    rw [List.getLast?_append, letter]; rfl
  have other (piece : List UInt8) (apart : piece.getLast? ≠ some c) :
      stem ++ ending.toList ≠ piece := by
    rintro rfl; exact apart last
  rw [shape, destination_append]
  exact nextLocation_plain _ (other _ (by simp)) (other _ (by simpa using notDot.symm))
    (other _ (by simpa using notDot.symm))

theorem Path.EndsIn.not_endsInSlash (ends : Path.EndsIn path ending)
    (letter : ending.toList.getLast? = some c) : ¬ Disk.EndsInSlash path := by
  obtain ⟨front, stem, shape⟩ := ends
  intro slash
  rw [Disk.EndsInSlash, shape, List.getLast?_append] at slash
  have none : stem ++ ending.toList = [] := by simpa using slash
  rw [(List.append_eq_nil_iff.mp none).2] at letter
  contradiction

theorem Path.EndsIn.apart (first : Path.EndsIn source ".rs") (second : Path.EndsIn archive ".a")
    (start begin : Location) :
    FragmentBuild.destination start (pieces source.text.toList) ≠
      FragmentBuild.destination begin (pieces archive.text.toList) := by
  obtain ⟨here, stem, leads⟩ := first.destination (c := 's'.toUInt8) (by rfl) (by decide) start
  obtain ⟨there, name, leadsToo⟩ := second.destination (c := 'a'.toUInt8) (by rfl) (by decide) begin
  rw [leads, leadsToo]
  intro same
  have names := congrArg List.getLast? same
  rw [List.getLast?_concat, List.getLast?_concat] at names
  have letters := congrArg (fun name => name.toList.getLast?) (Option.some.inj names)
  rw [List.getLast?_append, List.getLast?_append] at letters
  exact absurd letters (by decide : some 's'.toUInt8 ≠ some 'a'.toUInt8)

namespace Machine

variable {machine : Machine} {disk : Disk}

/-- What an absolute path leads to depends on the directories and on what stands there, unless
that is a link. -/
theorem isFile_withDisk (absolute : path.isAbsolute = true)
    (directories : ∀ folder, disk.get? folder = some .directory ↔
      machine.disk.get? folder = some .directory)
    (same : disk.get? (destination [] (pieces path.text.toList)) =
      machine.disk.get? (destination [] (pieces path.text.toList)))
    (noLink : ¬ machine.IsLink path) :
    (machine.withDisk disk).isFile path = machine.isFile path := by
  have leads (location : Location) :
      (machine.withDisk disk).locate path = .ok location ↔ machine.locate path = .ok location := by
    rw [locate_withDisk_absolute machine disk absolute]
    exact ⟨Disk.locate_mono fun folder => (directories folder).mp,
      Disk.locate_mono fun folder => (directories folder).mpr⟩
  have finds (location : Location) (entry : DiskEntry) :
      (machine.withDisk disk).find path = .ok (location, entry) ↔
        machine.find path = .ok (location, entry) := by
    simp only [find_eq_ok_iff, leads]
    refine and_congr_right fun here => ?_
    obtain rfl := locate_of_absolute absolute here
    rw [withDisk, same]
  rw [Bool.eq_iff_iff, isFile_iff, isFile_iff]
  constructor
  · rintro ⟨location, contents, executable, reached⟩
    have found := (reach_cases reached).resolve_right (by
      rintro ⟨other, target, link⟩
      exact noLink ⟨other, target, (finds other _).mp link⟩)
    exact ⟨location, contents, executable, reach_of_find ((finds location _).mp found)⟩
  · rintro ⟨location, contents, executable, reached⟩
    have found := (reach_cases reached).resolve_right noLink
    exact ⟨location, contents, executable, reach_of_find ((finds location _).mpr found)⟩

end Machine

namespace World

/-- Discarding a file: what it was called with leads to no regular file any more, and files at
other places stay. Links may lose what they lead to. -/
theorem discard_cases (world : World) (plain : ¬ Disk.EndsInSlash path)
    (absolute : path.isAbsolute = true) :
    (world.run (Task.requestAll [.discardFile path])).2.machine.isFile path = false ∧
      (∀ other : Path, other.isAbsolute = true →
        destination [] (pieces path.text.toList) ≠ destination [] (pieces other.text.toList) →
        ¬ world.machine.IsLink other →
        (world.run (Task.requestAll [.discardFile path])).2.machine.isFile other =
          world.machine.isFile other) ∧
      ∀ other : Path, world.machine.isFile other = false →
        (world.run (Task.requestAll [.discardFile path])).2.machine.isFile other = false := by
  have after : (world.run (Task.requestAll [.discardFile path])).2.machine =
      (world.machine.change
        (world.machine.disk.removeFile world.machine.working path)).2 := rfl
  rw [after]
  rcases world.machine.disk.removeFile_cases world.machine.working plain with
    ⟨cause, refused, noFile⟩ | ⟨location, leads, thing, erased⟩
  · rw [refused]
    exact ⟨noFile, fun _ _ _ _ => rfl, fun _ => id⟩
  · rw [erased]
    have here := Machine.locate_of_absolute absolute leads
    refine ⟨?_, fun other absoluteOther apart noLink => ?_, fun other noFile => ?_⟩
    · have root := Disk.ne_root_of_not_directory world.machine.disk thing
      have nothing (entry : DiskEntry) (place : Location) :
          (world.machine.withDisk (world.machine.disk.erase location)).find path ≠
            .ok (place, entry) := by
        intro found
        obtain ⟨leadsToo, stands⟩ := (Machine.find_eq_ok_iff ..).mp found
        rw [Machine.locate_of_absolute absolute leadsToo, ← here] at stands
        simp [Machine.withDisk, Disk.get?_erase, root] at stands
      rw [Bool.eq_false_iff, ne_eq, Machine.isFile_iff]
      rintro ⟨goal, contents, executable, reached⟩
      rcases Machine.reach_cases reached with found | ⟨place, target, link⟩
      · exact nothing _ _ found
      · exact nothing _ _ link
    · refine Machine.isFile_withDisk absoluteOther
        (fun folder => Disk.directory_erase_iff world.machine.disk folder thing) ?_ noLink
      exact Disk.get?_erase_of_ne _ (here ▸ apart.symm)
    · by_contra isFile
      rw [Bool.not_eq_false] at isFile
      rw [Machine.isFile_of_taken (fun _ _ => Disk.get?_of_erase) isFile] at noFile
      cases noFile

end World

/-- The files of a call of the compiler: the source, which holds the job's text, and the place
of the archive. -/
structure DirectFiles (machine : Machine) (job : Job) (source archive : Path) : Prop where
  sourceAbsolute : source.isAbsolute = true
  sourceEnds : source.EndsIn ".rs"
  archiveAbsolute : archive.isAbsolute = true
  archiveEnds : archive.EndsIn ".a"
  reads : machine.textAt? source = some job.source

/-- What a direct build ends in once the compiler was called. -/
structure DirectEnd (decided : Except Failure Unit) (left after : Machine) (archive : Path)
    (result : Except Failure Path) : Prop where
  failed : ∀ failure, decided = .error failure →
    result = .error failure ∧ after.isFile archive = false
  built : decided = .ok () → result = .ok archive ∧
    (¬ left.IsLink archive → after.isFile archive = left.isFile archive)

def Builder.callFor (builder : Builder) (job : Job) (source archive : Path) : Invocation :=
  compilerCall builder.settings.toolchain job.extraArguments source archive

namespace World

variable {world after : World}

theorem buildDirect_cases (builder : Builder) (job : Job)
    (ran : world.exec (builder.buildDirect job) = (result, after)) :
    ((∃ path cause, result = .error (.inaccessible path cause)) ∧ SameRecords world after) ∨
      ∃ source archive machine, DirectFiles machine job source archive ∧
        Called world after (builder.callFor job source archive) machine ∧
        DirectEnd
          (verdict builder.settings.toolchain.compiler "compilation"
            (world.tool (builder.callFor job source archive) machine).1)
          (world.tool.leaves (builder.callFor job source archive) machine)
          after.machine archive result := by
  rw [Builder.buildDirect] at ran
  obtain ⟨outcome, written, sourced, ran⟩ := exec_bind_ran ran
  have untouched := (Scratch.asks_sourceFile builder.scratch job.source).isLocal.sameRecords sourced
  rcases sourceFile_cases builder.scratch job.source sourced with
    ⟨path, cause, rfl⟩ | ⟨source, location, executable, rfl, absolute, ends, found⟩
  · cases ran; exact .inl ⟨⟨_, _, rfl⟩, untouched⟩
  obtain ⟨ended, inside, rfl⟩ := exec_thenDiscard_ran ran
  have cleans := Program.Asks.sameRecords
    (Task.asks_requestAll [.discardFile source] (by simp [Request.IsLocal])) ended
  obtain ⟨-, stays, noneNew⟩ := discard_cases ended
    (ends.not_endsInSlash (c := 's'.toUInt8) (by rfl)) absolute
  obtain ⟨outcome, prepared, reserved, inside⟩ := exec_bind_ran inside
  have untouchedToo := untouched.trans
    ((Scratch.asks_newFile builder.scratch ".a").isLocal.sameRecords reserved)
  rcases newFile_cases builder.scratch ".a" (by decide) reserved with
    ⟨path, cause, rfl⟩ | ⟨archive, goal, rfl, own⟩
  · cases inside; exact .inl ⟨⟨_, _, rfl⟩, untouchedToo.trans cleans⟩
  obtain ⟨outcome, left, compiled, inside⟩ := exec_bind_ran inside
  obtain ⟨called, calling, rfl⟩ := exec_onFailure_ran compiled
  obtain ⟨events, calling⟩ := exec_report_bind calling
  obtain ⟨answered, call, leaves⟩ := callTool_cases builder calling
  have record := call.ofLocal (untouchedToo.trans (sameRecords_events prepared events))
  have sameTool : prepared.tool = world.tool := untouchedToo.tool
  dsimp only at answered leaves
  rw [sameTool] at answered leaves
  have apart := ends.apart own.ends [] []
  refine .inr ⟨source, archive, prepared.machine, ⟨absolute, ends, own.absolute, own.ends,
    Machine.textAt?_of_reach (Machine.reach_of_find (own.grows.find found))⟩, ?_⟩
  cases outcome with
  | ok done =>
    obtain ⟨rfl, rfl⟩ := Prod.mk.inj inside
    refine ⟨record.thenLocal cleans, fun failure decided => ?_, fun _ => ⟨rfl, fun noLink => ?_⟩⟩
    · cases answered.trans decided
    · have kept : ¬ called.machine.IsLink archive := by
        rw [leaves]
        exact noLink
      rw [stays archive own.absolute apart kept, leaves]
      rfl
  | error failure =>
    obtain ⟨rfl, rfl⟩ := Prod.mk.inj inside
    have gaveUp := Program.Asks.sameRecords
      (Task.asks_requestAll [.discardFile archive] (by simp [Request.IsLocal])) called
    refine ⟨(record.thenLocal gaveUp).thenLocal cleans, fun other decided => ?_,
      fun decided => ?_⟩
    · cases answered.trans decided
      refine ⟨rfl, ?_⟩
      have plain := own.ends.not_endsInSlash (c := 'a'.toUInt8) (by rfl)
      exact noneNew archive (discard_cases called plain own.absolute).1
    · cases answered.trans decided

end World

end FragmentBuild
