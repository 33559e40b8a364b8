import FragmentBuild.Proofs.ReportedArchive
import FragmentBuild.Proofs.WorkEndings

/-! What a failed build leaves of the files it has made. Whatever goes wrong, it gives them up,
but for one case: the archive of a package belongs to the caller before the working directory
is removed, and nobody gets it if that removal fails. -/
namespace FragmentBuild

def Exchange.refusesRemoval : Exchange → Bool
  | ⟨.removeTree _, .error _, _, _⟩ => true
  | _ => false

theorem refusesRemoval_eq_false {trace : List Exchange}
    (steps : ∀ exchange ∈ trace, exchange.request.IsBuildStep) :
    ∀ exchange ∈ trace, exchange.refusesRemoval = false := by
  intro exchange member
  have step := steps exchange member
  obtain ⟨request, answer, before, after⟩ := exchange
  cases request with
  | removeTree path => exact step.elim
  | _ => rfl

theorem Disk.removeTree_keeps (disk : Disk) (working : Option Location) (path : Path)
    (stands : (disk.removeTree working path).2.get? location = some entry) :
    disk.get? location = some entry := by
  have emptied (root : Location) (stands : (disk.eraseBelow root).get? location = some entry) :
      disk.get? location = some entry := by
    rw [get?_eraseBelow] at stands
    split at stands
    · cases stands
    · exact stands
  rcases removeTree_cases disk working path with
    ⟨cause, refused⟩ | ⟨place, target, -, gone⟩ | ⟨root, -, ⟨result, left, -⟩ | ⟨erased, -, -⟩⟩
  · rwa [refused] at stands
  · rw [gone] at stands
    exact get?_of_erase stands
  · rw [left] at stands
    exact emptied root stands
  · rw [erased] at stands
    exact emptied root (get?_of_erase stands)

/-- No directory was left for want of its removal, and none of the files that were made is
there. -/
structure LeavesNoFile (trace : List Exchange) (after : Machine) : Prop where
  removed : ∀ exchange ∈ trace, exchange.refusesRemoval = false
  gone : ∀ path ∈ madeIn trace, after.isFile path = false

/-- A run ends with a refused removal, at which the one file that it has made was there, or a link
in its place. -/
structure Mishap.LeavesOrphan (mishap : Mishap) (trace : List Exchange) (after : Machine)
    (archive : Path) : Prop where
  made : madeIn trace = [archive]
  refused : ∃ exchange ∈ trace, exchange.refusesRemoval = true
  last : ∀ exchange ∈ trace, exchange.refusesRemoval = true → exchange.after = after
  stood : mishap.IsClean → ∀ exchange ∈ trace, exchange.refusesRemoval = true →
    exchange.before.isFile archive = true ∨ exchange.before.IsLink archive

theorem LeavesNoFile.after (nothing : LeavesNoFile trace left)
    (removed : ∀ exchange ∈ first, exchange.refusesRemoval = false)
    (none : madeIn first = []) : LeavesNoFile (first ++ trace) left where
  removed := List.forall_mem_append.mpr ⟨removed, nothing.removed⟩
  gone := by
    rw [madeIn_append, none]
    exact nothing.gone

theorem Mishap.LeavesOrphan.after {mishap : Mishap}
    (orphan : mishap.LeavesOrphan trace left archive)
    (removed : ∀ exchange ∈ first, exchange.refusesRemoval = false)
    (none : madeIn first = []) : mishap.LeavesOrphan (first ++ trace) left archive := by
  have later (exchange : Exchange) (member : exchange ∈ first ++ trace)
      (refused : exchange.refusesRemoval = true) : exchange ∈ trace := by
    refine (List.mem_append.mp member).resolve_left fun early => ?_
    rw [removed exchange early] at refused
    cases refused
  obtain ⟨exchange, member, refused⟩ := orphan.refused
  refine ⟨?_, ⟨exchange, List.mem_append_right _ member, refused⟩, ?_, ?_⟩
  · rw [madeIn_append, none]
    exact orphan.made
  · exact fun other inside is => orphan.last other (later other inside is) is
  · exact fun clean other inside is => orphan.stood clean other (later other inside is) is

namespace World

variable {mishap : Mishap} {world after : World} {trace : List Exchange}

theorem givenUp_makesNothing (work : WorkDirectory)
    (ran : Runs mishap world (Task.requestAll work.givenUp) trace value after) :
    madeIn trace = [] ∧ (∀ exchange ∈ trace, exchange.refusesRemoval = false) ∧
      ∀ path, world.machine.isFile path = false → after.machine.isFile path = false := by
  have gaveUp := runs_givenUp work ran
  cases work with
  | fixed directory =>
    obtain ⟨rfl, rfl⟩ := gaveUp
    exact ⟨rfl, nofun, fun _ => id⟩
  | unique directory =>
    obtain ⟨rfl, left⟩ := gaveUp
    refine ⟨rfl, List.forall_mem_singleton.mpr rfl, fun path noFile => ?_⟩
    by_contra isFile
    rw [left, Bool.not_eq_false] at isFile
    rw [Machine.isFile_of_taken (fun _ _ => Disk.removeTree_keeps _ _ _) isFile] at noFile
    cases noFile

/-- A failed call of the compiler leaves neither its source file nor its archive. -/
theorem ends_buildDirect_failed (builder : Builder) (job : Job)
    (ended : Ends mishap world (builder.buildDirect job) trace (.error cause) after) :
    ∀ path ∈ madeIn trace, after.machine.isFile path = false := by
  obtain ⟨first, rest, outcome, middle, rfl, sourced, later⟩ := ended.bind
  rcases ends_sourceFile builder.scratch job.source sourced with
    ⟨cause, rfl, gone, -⟩ | ⟨source, location, rfl, made, absolute, ends, -⟩
  · obtain ⟨rfl, -, rfl⟩ := later
    rw [List.append_nil]
    exact gone
  obtain ⟨inner, given, inside, rfl, within, discarded⟩ := ends_thenDiscard later
  obtain ⟨silent, rfl⟩ := runs_discardFile discarded
  obtain ⟨sourceGone, -, noneNew⟩ :=
    discard_cases inside (ends.not_endsInSlash (c := 's'.toUInt8) (by rfl)) absolute
  obtain ⟨second, others, outcome, reserving, rfl, reserved, went⟩ := Ends.bind within
  rcases ends_newFile builder.scratch ".a" (by decide) reserved with
    ⟨cause, rfl, none, -⟩ | ⟨archive, place, between, rfl, madeToo, fresh, -⟩
  · obtain ⟨rfl, -, rfl⟩ := went
    simp only [madeIn_append, made, none, silent, List.append_nil, List.mem_singleton]
    rintro path rfl
    exact sourceGone
  obtain ⟨third, last, outcome, final, rfl, compiled, wentOn⟩ := Ends.bind went
  obtain ⟨asked, gone, left, rfl, calling, gaveUp⟩ := ends_onFailure compiled
  have quiet : madeIn asked = [] := calling.madeIn_eq_nil
    (Task.Asks.bind (builder.makesNoFile_report _) fun _ => builder.makesNoFile_callTool _ _)
  cases outcome with
  | ok done => cases (ends_pure wentOn).2.1
  | error cause =>
    obtain ⟨rfl, -, rfl⟩ := wentOn
    obtain ⟨silentToo, rfl⟩ := runs_discardFile gaveUp
    have archiveGone := (discard_cases left (fresh.ends.not_endsInSlash (c := 'a'.toUInt8) (by rfl))
      fresh.absolute).1
    simp only [madeIn_append, made, madeToo, quiet, silent, silentToo, List.append_nil,
      List.mem_append, List.mem_singleton]
    rintro path (rfl | rfl)
    · exact sourceGone
    · exact noneNew path archiveGone

/-- The work in a directory has made one file, the archive that it hands on, or has left
nothing. -/
theorem buildIn_made (builder : Builder) (job : Job) (manifest : String) (work : WorkDirectory) :
    Ends mishap world (builder.buildIn job manifest work) trace result after →
      match result with
      | .error _ => ∀ path ∈ madeIn trace, after.machine.isFile path = false
      | .ok archive => madeIn trace = [archive] ∧
          (mishap.IsClean → after.machine.isFile archive = true ∨
            after.machine.IsLink archive) := by
  intro ended
  obtain ⟨first, rest, outcome, middle, rfl, none, -, handed⟩ :=
    ends_buildIn builder job manifest work ended
  rw [madeIn_append, none, List.nil_append]
  cases outcome with
  | error failure =>
    obtain ⟨rfl, rfl, -⟩ := handed
    exact nofun
  | ok done =>
    rcases handed with ⟨failure, rfl, gone, -⟩ | ⟨archive, location, rfl, made, -, relocated⟩
    · exact gone
    · refine ⟨made, fun clean => ?_⟩
      obtain ⟨contents, executable, found⟩ | ⟨-, target, link⟩ := (relocated clean).found
      · exact .inl (Machine.isFile_of_find found)
      · exact .inr ⟨location, target, link⟩

/-- A failed package build has left an archive only if its directory could not be removed. -/
theorem ends_buildPackage_failed (builder : Builder) (job : Job) (manifest : String)
    (ended : Ends mishap world (builder.buildPackage job manifest) trace (.error cause) after) :
    LeavesNoFile trace after.machine ∨
      ∃ archive, mishap.LeavesOrphan trace after.machine archive := by
  have nothing (given : List Exchange) (folding : ∀ exchange ∈ given, exchange.request.IsFolding) :
      (∀ exchange ∈ given, exchange.refusesRemoval = false) ∧ madeIn given = [] :=
    ⟨refusesRemoval_eq_false fun exchange member => (folding exchange member).isBuildStep,
      madeIn_eq_nil fun exchange member => (folding exchange member).makesNoFile⟩
  rcases ends_buildPackage builder job manifest ended with ⟨failure, -, folded⟩ |
    ⟨first, inside, rest, work, made, outcome, built, rfl, folded, building, ends⟩
  · obtain ⟨removed, none⟩ := nothing _ (folded.asked (WorkDirectory.asks_make ..))
    exact .inl ⟨removed, by rw [none]; nofun⟩
  obtain ⟨removed, none⟩ := nothing _ (folded.asked (WorkDirectory.asks_make ..))
  have removedToo := refusesRemoval_eq_false
    (building.asked (builder.asks_buildIn job manifest work))
  have archived := buildIn_made builder job manifest work building
  cases outcome with
  | error failure =>
    obtain ⟨-, gaveUp⟩ := ends
    obtain ⟨silent, given, stays⟩ := givenUp_makesNothing work gaveUp
    refine .inl (LeavesNoFile.after ⟨?_, fun path member => ?_⟩ removed none)
    · exact List.forall_mem_append.mpr ⟨removedToo, given⟩
    · rw [madeIn_append, silent, List.append_nil] at member
      exact stays path (archived path member)
  | ok archive =>
    obtain ⟨outcome, removing, failed⟩ := ends
    obtain ⟨answered, rfl, told, -, -⟩ := ends_removeWork work removing
    cases answered with
    | ok done =>
      rw [told.mpr rfl] at failed
      cases failed
    | error cause =>
      have only (exchange : Exchange)
          (member : exchange ∈ inside ++ [⟨.removeTree work.path, .error cause, built.machine,
            after.machine⟩]) (refused : exchange.refusesRemoval = true) :
          exchange = ⟨.removeTree work.path, .error cause, built.machine, after.machine⟩ := by
        rcases List.mem_append.mp member with within | last
        · rw [removedToo exchange within] at refused
          cases refused
        · exact List.mem_singleton.mp last
      refine .inr ⟨archive, Mishap.LeavesOrphan.after ⟨?_, ?_, ?_, ?_⟩ removed none⟩
      · rw [madeIn_append, archived.1]
        rfl
      · exact ⟨_, List.mem_append_right _ List.mem_cons_self, rfl⟩
      · exact fun exchange member refused => by rw [only exchange member refused]
      · exact fun clean exchange member refused => by
          rw [only exchange member refused]
          exact archived.2 clean

theorem ends_build_failed (builder : Builder) (job : Job)
    (ended : Ends mishap world (builder.build job) trace (.error cause) after) :
    LeavesNoFile trace after.machine ∨
      ∃ archive, mishap.LeavesOrphan trace after.machine archive := by
  obtain ⟨first, rest, events, rfl, reports, ended⟩ := ends_build builder job ended
  have removed := refusesRemoval_eq_false fun exchange member =>
    (reports exchange member).isBuildStep
  have none := madeIn_eq_nil fun exchange member => (reports exchange member).makesNoFile
  cases described : job.manifest with
  | none =>
    rw [described] at ended
    have removedToo := refusesRemoval_eq_false (ended.asked (builder.asks_buildDirect job))
    exact .inl (.after ⟨removedToo, ends_buildDirect_failed builder job ended⟩ removed none)
  | some manifest =>
    rw [described] at ended
    rcases ends_buildPackage_failed builder job manifest ended with nothing | ⟨archive, orphan⟩
    · exact .inl (nothing.after removed none)
    · exact .inr ⟨archive, orphan.after removed none⟩

end World

/-- A failed build leaves a file that it has made exactly if the removal of its directory was
refused and has left that file; and such a removal always comes when the archive, which nobody
has been given, is there, or the link that the tool has left in its place. -/
theorem orphaned_archive_iff {mishap : Mishap} {world after : World} {trace : List Exchange}
    (builder : Builder) (job : Job)
    (ended : World.Ends mishap world (builder.build job) trace (.error cause) after) :
    ((∃ path ∈ madeIn trace, after.machine.isFile path = true) ↔
      ∃ exchange ∈ trace, exchange.refusesRemoval = true ∧
        ∃ path ∈ madeIn trace, exchange.after.isFile path = true) ∧
    (mishap.IsClean → ∀ exchange ∈ trace, exchange.refusesRemoval = true →
      ∃ archive, madeIn trace = [archive] ∧
        (exchange.before.isFile archive = true ∨ exchange.before.IsLink archive)) := by
  rcases World.ends_build_failed builder job ended with nothing | ⟨archive, orphan⟩
  · refine ⟨⟨?_, ?_⟩, fun _ exchange member refused => ?_⟩
    · rintro ⟨path, member, isFile⟩
      rw [nothing.gone path member] at isFile
      cases isFile
    · rintro ⟨exchange, member, refused, -⟩
      rw [nothing.removed exchange member] at refused
      cases refused
    · rw [nothing.removed exchange member] at refused
      cases refused
  · refine ⟨⟨fun remains => ?_, ?_⟩, fun clean exchange member refused => ?_⟩
    · obtain ⟨exchange, member, refused⟩ := orphan.refused
      refine ⟨exchange, member, refused, ?_⟩
      rw [orphan.last exchange member refused]
      exact remains
    · rintro ⟨exchange, member, refused, remains⟩
      rw [orphan.last exchange member refused] at remains
      exact remains
    · exact ⟨archive, orphan.made, orphan.stood clean exchange member refused⟩

/-- A builder whose working directory is named by a dot: it can be emptied under this name but
not removed. -/
def Builder.dotted : Builder where
  settings := { Settings.small .fixed with
    toolchain := { (Settings.small .fixed).toolchain with workName := "." } }
  scratch := ⟨⟨"/t"⟩⟩

/-- A package build in a directory named by a dot fails and has left an archive. -/
theorem Builder.dotted_ends :
    ∃ cause trace after,
      World.Ends .refusals (.small (ScriptedTool.archive .empty).tool)
        (Builder.dotted.build .package) trace (.error cause) after ∧
      madeIn trace = [⟨"/t/graft-aaaaaa.a"⟩] ∧
      after.machine.isFile ⟨"/t/graft-aaaaaa.a"⟩ = true := by
  have ends := World.runs_run .refusals (.small (ScriptedTool.archive .empty).tool)
    (Builder.dotted.build .package).run
  have facts : ((World.small (ScriptedTool.archive .empty).tool).run
        (Builder.dotted.build .package).run).1.toOption = none ∧
      madeIn ((World.small (ScriptedTool.archive .empty).tool).record
        (Builder.dotted.build .package).run) = [⟨"/t/graft-aaaaaa.a"⟩] ∧
      ((World.small (ScriptedTool.archive .empty).tool).run
        (Builder.dotted.build .package).run).2.machine.isFile ⟨"/t/graft-aaaaaa.a"⟩ = true := by
    decide +kernel
  rcases ran : (World.small (ScriptedTool.archive .empty).tool).run
    (Builder.dotted.build .package).run with ⟨result, after⟩
  rw [ran] at ends facts
  obtain ⟨failed, made, isFile⟩ := facts
  cases result with
  | error cause => exact ⟨cause, _, after, ends, made, isFile⟩
  | ok archive => cases failed

/-- The build fails, and the archive that it has moved away is still there. -/
theorem orphaned_archive_in_dotted_directory :
    ¬ ∀ cause trace after,
      World.Ends .refusals (.small (ScriptedTool.archive .empty).tool)
        (Builder.dotted.build .package) trace (.error cause) after →
      ∀ path ∈ madeIn trace, after.machine.isFile path = false := by
  intro promise
  obtain ⟨cause, trace, after, ends, made, isFile⟩ := Builder.dotted_ends
  have gone := promise cause trace after ends _ (by rw [made]; exact List.mem_cons_self)
  rw [isFile] at gone
  cases gone

/-- The theorem on that build: the removal of the directory was refused when the archive was
there. -/
theorem orphaned_archive_iff_dotted :
    ∃ cause trace after,
      World.Ends .refusals (.small (ScriptedTool.archive .empty).tool)
        (Builder.dotted.build .package) trace (.error cause) after ∧
      ∃ exchange ∈ trace, exchange.refusesRemoval = true ∧
        (exchange.before.isFile ⟨"/t/graft-aaaaaa.a"⟩ = true ∨
          exchange.before.IsLink ⟨"/t/graft-aaaaaa.a"⟩) := by
  obtain ⟨cause, trace, after, ends, made, isFile⟩ := Builder.dotted_ends
  obtain ⟨remains, before⟩ := orphaned_archive_iff Builder.dotted .package ends
  obtain ⟨exchange, member, refused, -⟩ :=
    remains.mp ⟨_, by rw [made]; exact List.mem_cons_self, isFile⟩
  obtain ⟨archive, same, stood⟩ := before Mishap.isClean_refusals exchange member refused
  rw [made] at same
  cases same
  exact ⟨cause, trace, after, ends, exchange, member, refused, stood⟩

end FragmentBuild
