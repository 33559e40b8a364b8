import FragmentBuild.Proofs.CallCounts
import FragmentBuild.Proofs.ScratchEndings

/-! Package builds in runs with mishaps: how the directory is made, how the work in it can end,
and what is done with the directory then. Where refused requests have done nothing, each of these
steps changes only what lies in the directory, but for the one call of the tool and the archive
that is handed on. -/
namespace FragmentBuild

theorem Request.IsFolding.makesNoFile {request : Request} (isFolding : request.IsFolding) :
    request.MakesNoFile := by
  cases request <;> first | exact fun _ => Request.noConfusion | exact isFolding.elim

theorem Request.IsFolding.isBuildStep {request : Request} (isFolding : request.IsFolding) :
    request.IsBuildStep := by
  cases request <;> trivial

theorem Request.IsReport.isBuildStep {request : Request} (isReport : request.IsReport) :
    request.IsBuildStep := by
  obtain ⟨event, rfl⟩ := isReport
  trivial

namespace World

open Machine (Touches)

variable {mishap : Mishap} {world after : World} {trace : List Exchange}

/-- A directory that was made for a build, under a name that was given out. -/
structure NewDirectory (names : Nat → String) (parent : Path) (start : OsText)
    (before after : Machine) (path : Path) (location : Location) : Prop where
  named : ∃ base number, parent.IsWhole before.working base ∧
    path = base.child (start ++ names number)
  free : before.disk.get? location = none
  made : after = before.withDisk (before.disk.put location .directory)
  leads : after.locate path = .ok location

theorem NewDirectory.absolute (new : NewDirectory given parent start before later path location) :
    path.isAbsolute = true := by
  obtain ⟨base, number, whole, rfl⟩ := new.named
  exact Path.isAbsolute_join _ _ whole.1

theorem NewDirectory.names (new : NewDirectory given parent start before later path location)
    (working : Option Location) : path.Names working location :=
  (Path.names_of_locate new.leads).of_absolute new.absolute working

theorem NewDirectory.contains_iff
    (new : NewDirectory given parent start before later path location)
    (working : Option Location) (other : Location) :
    path.Contains working other ↔ location <+: other := by
  refine ⟨fun ⟨root, names, within⟩ => ?_, fun within => ⟨location, new.names working, within⟩⟩
  rwa [names.eq (new.names working)] at within

theorem NewDirectory.touches
    (new : NewDirectory given parent start before later path location) :
    Touches (· = location) missing before later := by
  rw [new.made]
  exact Machine.touches_withDisk (Disk.changesOnly_put _ _ _)

theorem NewDirectory.stands
    (new : NewDirectory given parent start before later path location) :
    later.disk.get? location = some .directory := by
  have notRoot := Disk.ne_root_of_not_directory before.disk (by rw [new.free]; exact nofun)
  rw [new.made]
  simp [Machine.withDisk, Disk.get?_put, notRoot]

theorem runs_freshDirectory (clean : mishap.IsClean) (base : Path) (start : OsText)
    (attempts : Nat)
    (ran : Runs mishap world (Scratch.freshDirectory base start attempts) trace result after) :
    (∃ cause, result = .error cause ∧ after.machine = world.machine) ∨
      ∃ number location, result = .ok (base.child (start ++ world.names number)) ∧
        world.machine.disk.get? location = none ∧
        after.machine = world.machine.withDisk (world.machine.disk.put location .directory) ∧
        after.machine.locate (base.child (start ++ world.names number)) = .ok location ∧
        (⟨.makeDirectory (base.child (start ++ world.names number)), .ok (), world.machine,
          after.machine⟩ : Exchange) ∈ trace := by
  induction attempts generalizing world trace with
  | zero =>
    obtain ⟨-, rfl, rfl⟩ := runs_pure ran
    exact .inl ⟨_, rfl, rfl⟩
  | succ attempts ih =>
    obtain ⟨first, rest, name, between, rfl, asked, later⟩ := ran.bind
    obtain ⟨-, rfl, given⟩ | ⟨_, _, ⟨⟩, _⟩ := runs_request asked
    have sameNames : between.names = world.names := by rw [given]; rfl
    have same : between.machine = world.machine := by rw [given]; rfl
    obtain ⟨second, last, created, final, rfl, creation, went⟩ := later.bind
    rcases runs_change rfl creation with ⟨cause, rfl, unmade⟩ | ⟨disk, made, rfl, left⟩
    · have unchanged : final.machine = world.machine := (unmade clean).trans same
      cases cause with
      | alreadyExists =>
        have later := ih went
        rw [(World.Runs.fixed creation).1, sameNames, unchanged] at later
        rcases later with refused | ⟨number, location, named, free, put, leads, member⟩
        · exact .inl refused
        · exact .inr ⟨number, location, named, free, put, leads, by simp [member]⟩
      | _ =>
        obtain ⟨-, rfl, rfl⟩ := runs_pure went
        exact .inl ⟨_, rfl, unchanged⟩
    · obtain ⟨-, rfl, rfl⟩ := runs_pure went
      obtain ⟨location, _, -, free, put, leads⟩ := Disk.makeDirectory_eq_ok made
      rw [same] at free put left
      refine .inr ⟨world.named, location, rfl, free, by rw [left, put], ?_, ?_⟩
      · rw [left, Machine.withDisk, ← same]
        exact Machine.locate_filter leads
      · rcases runs_request creation with ⟨rfl, -⟩ | ⟨_, _, refusal, -⟩
        · rw [← same]
          exact List.mem_append_right _ (List.mem_append_left _ List.mem_cons_self)
        · cases refusal

theorem ends_makeUnique (clean : mishap.IsClean) (parent : Path) (name : OsText)
    (ended : Ends mishap world (WorkDirectory.make parent .unique name) trace result after) :
    (∃ failure, result = .error failure ∧ after.machine = world.machine) ∨
      ∃ path location, result = .ok (.unique path) ∧
        NewDirectory world.names parent name world.machine after.machine path location ∧
        (⟨.makeDirectory path, .ok (), world.machine, after.machine⟩ : Exchange) ∈ trace := by
  obtain ⟨first, rest, outcome, middle, rfl, found, later⟩ := ended.bind
  obtain ⟨answered, placed, rfl⟩ := ends_orInaccessible found
  obtain ⟨-, ⟨cause, rfl, same⟩ | ⟨base, rfl, rfl, isWhole⟩⟩ := runs_absolute placed
  · obtain ⟨-, rfl, rfl⟩ := later
    exact .inl ⟨_, rfl, same clean⟩
  · obtain ⟨second, last, outcome, final, rfl, named, went⟩ := Ends.bind later
    obtain ⟨answered, made, rfl⟩ := ends_orInaccessible named
    rcases runs_freshDirectory clean base name nameAttempts made with
      ⟨cause, rfl, same⟩ | ⟨number, location, rfl, free, put, leads, member⟩
    · obtain ⟨-, rfl, rfl⟩ := went
      exact .inl ⟨_, rfl, same⟩
    · obtain ⟨-, rfl, rfl⟩ := ends_pure went
      exact .inr ⟨_, location, rfl, ⟨⟨base, number, isWhole, rfl⟩, free, put, leads⟩,
        by simp [member]⟩

theorem ends_makeFixed (clean : mishap.IsClean) (parent : Path) (name : OsText)
    (ended : Ends mishap world (WorkDirectory.make parent .fixed name) trace result after) :
    ((∃ failure, result = .error failure) ∨ result = .ok (.fixed (parent.child name))) ∧
      Touches (fun _ => False) ((parent.child name).OnWay world.machine.working) world.machine
        after.machine := by
  obtain ⟨first, rest, outcome, middle, -, found, later⟩ := ended.bind
  obtain ⟨answered, asked, rfl⟩ := ends_orInaccessible found
  obtain ⟨-, grown, -⟩ := runs_makeDirectories asked
  rcases answered with cause | ⟨⟩
  · obtain ⟨-, rfl, rfl⟩ := later
    exact ⟨.inl ⟨_, rfl⟩, grown clean⟩
  · obtain ⟨-, rfl, rfl⟩ := ends_pure later
    exact ⟨.inr rfl, grown clean⟩

/-- Contents were put where a link led. -/
def PutThroughLink (trace : List Exchange) (location : Location) : Prop :=
  ∃ path contents answered before left,
    (⟨.write path contents, answered, before, left⟩ : Exchange) ∈ trace ∧
      before.IsLink path ∧ before.aim path = .ok location

theorem PutThroughLink.mono {more : List Exchange} (put : PutThroughLink trace location)
    (within : trace ⊆ more) : PutThroughLink more location := by
  obtain ⟨path, contents, answered, before, left, member, link, aimed⟩ := put
  exact ⟨path, contents, answered, before, left, within member, link, aimed⟩

/-- A text is written to the one place where its path leads, or the request is refused and nothing
has changed. -/
theorem ends_writeFile_cases (clean : mishap.IsClean) (path : Path) (text : String)
    (ended : Ends mishap world (Builder.writeFile path text) trace result after) :
    (∃ failure, result = .error failure) ∧ after.machine = world.machine ∨
      result = .ok () ∧
        (∃ contents answered, (⟨.write path contents, answered, world.machine, after.machine⟩ :
          Exchange) ∈ trace) ∧
        ∃ location, Written world.machine after.machine path text location ∧
          Touches (· = location) (fun _ => False) world.machine after.machine := by
  obtain ⟨answered, asked, rfl⟩ := ends_orInaccessible ended
  have member := asked.mem_request
  rcases runs_change rfl asked with ⟨cause, rfl, same⟩ | ⟨disk, wrote, rfl, left⟩
  · exact .inl ⟨⟨_, rfl⟩, same clean⟩
  · obtain ⟨location, written⟩ := written_of_write wrote
    refine .inr ⟨rfl, ⟨_, _, member⟩, location, by rwa [left], ?_⟩
    rw [left]
    exact Machine.touches_withDisk fun other =>
      (em (other = location)).elim (fun same => .inr (.inl same))
        fun apart => .inl (written.others other apart)

/-- A text is written, or the request is refused. -/
theorem ends_writeFile (clean : mishap.IsClean) (path : Path) (text : String)
    (ended : Ends mishap world (Builder.writeFile path text) trace result after) :
    Touches (fun location => ∃ here, path.Names world.machine.working here ∧
        (location = here ∨ PutThroughLink trace location)) (fun _ => False) world.machine
        after.machine ∧
      ((∃ failure, result = .error failure) ∨
        result = .ok () ∧
          (∃ contents answered, (⟨.write path contents, answered, world.machine, after.machine⟩ :
            Exchange) ∈ trace) ∧
          ∃ location, Written world.machine after.machine path text location) := by
  rcases ends_writeFile_cases clean path text ended with
    ⟨failed, same⟩ | ⟨done, ⟨contents, answered, member⟩, place, written, touches⟩
  · rw [same]
    exact ⟨.refl _, .inl failed⟩
  · refine ⟨touches.weaken (fun location => ?_) fun _ => id,
      .inr ⟨done, ⟨_, _, member⟩, place, written⟩⟩
    rintro rfl
    obtain ⟨here, leads, -⟩ := (Disk.aim_eq_ok_iff ..).mp written.leads
    have names := Path.names_of_locate leads
    exact ⟨here, names, (Path.names_or_link written.leads).imp (·.eq names) fun link =>
      ⟨_, _, _, _, _, member, link, written.leads⟩⟩

/-- A call of a tool in a run, with the machines before and after it. -/
structure CallIn (trace : List Exchange) (invocation : Invocation)
    (answered : Except SystemError Report) (before left : Machine) : Prop where
  member : (⟨.call invocation, answered, before, left⟩ : Exchange) ∈ trace
  changed : left = before.withDisk left.disk

theorem CallIn.mono {before later : Machine} {more : List Exchange}
    (call : CallIn trace invocation answered before later) (within : trace ⊆ more) :
    CallIn more invocation answered before later :=
  ⟨within call.member, call.changed⟩

theorem ends_callTool (builder : Builder) (invocation : Invocation) (action : String)
    (ended : Ends mishap world (builder.callTool invocation action) trace result after) :
    ∃ answered, CallIn trace invocation answered world.machine after.machine ∧
      result = verdict invocation.program action answered := by
  obtain ⟨reported, called, events, rfl, -, later⟩ := ends_report_bind ended
  obtain ⟨first, rest, answered, middle, rfl, asked, went⟩ := ends_request_bind later
  obtain ⟨rfl, -, left⟩ | ⟨_, _, ⟨⟩, _⟩ := runs_request asked
  have stays : middle.machine = world.machine.withDisk middle.machine.disk := by rw [left]; rfl
  have call : CallIn (reported ++ ([⟨.call invocation, answered, world.machine, middle.machine⟩] ++
      rest)) invocation answered world.machine middle.machine := ⟨by simp, stays⟩
  cases answered with
  | error cause =>
    obtain ⟨rfl, rfl, rfl⟩ := ends_fail went
    exact ⟨_, call, rfl⟩
  | ok report =>
    dsimp only at went
    cases success : report.success with
    | true =>
      rw [if_neg (by simp [success])] at went
      obtain ⟨rfl, rfl, rfl⟩ := ends_pure went
      exact ⟨_, call, (if_pos success).symm⟩
    | false =>
      rw [if_pos (by simp [success])] at went
      obtain ⟨_, _, events, rfl, -, failed⟩ := ends_report_bind went
      obtain ⟨rfl, rfl, rfl⟩ := ends_fail failed
      exact ⟨_, call, (if_neg (by simp [success])).symm⟩

/-- The working directory as the package tool finds it. -/
structure PreparedWork (trace : List Exchange) (before machine : Machine) (job : Job)
    (manifest : String) (work : Path) (root : Location) : Prop where
  named : work.Names before.working root
  touches : Touches (fun location => (location = root ++ [(Manifest.sourceFileName : OsText)] ∨
      location = root ++ [(Manifest.fileName : OsText)]) ∨ PutThroughLink trace location)
    (fun _ => False) before machine
  plain : (∀ exchange ∈ trace, exchange.IsPlain) →
    (∃ executable, machine.disk.get? (root ++ [(Manifest.sourceFileName : OsText)]) =
        some (.file job.source.toUTF8 executable)) ∧
      ∃ executable, machine.disk.get? (root ++ [(Manifest.fileName : OsText)]) =
        some (.file manifest.toUTF8 executable)
  source : before.KeepsApart work → ∃ location executable,
    machine.reach (work.child Manifest.sourceFileName) =
      .ok (location, .file job.source.toUTF8 executable)
  manifest : before.KeepsApart work → ∃ location executable,
    machine.reach (work.child Manifest.fileName) =
      .ok (location, .file manifest.toUTF8 executable)

theorem stand_of_written {before middle machine : Machine} {work : Path} {manifest : String}
    (first : Written before middle (work.child Manifest.sourceFileName) source place)
    (second : Written middle machine (work.child Manifest.fileName) manifest goal)
    (stays : ∀ here, middle.working = some here → before.working = some here)
    (named : work.Names before.working root)
    (plain : (⟨.write (work.child Manifest.sourceFileName) contents, answered, before, middle⟩ :
      Exchange).IsPlain)
    (plainToo : (⟨.write (work.child Manifest.fileName) description, told, middle, machine⟩ :
      Exchange).IsPlain) :
    (∃ executable, machine.disk.get? (root ++ [(Manifest.sourceFileName : OsText)]) =
        some (.file source.toUTF8 executable)) ∧
      ∃ executable, machine.disk.get? (root ++ [(Manifest.fileName : OsText)]) =
        some (.file manifest.toUTF8 executable) := by
  have straight := plain.straight (work.child Manifest.sourceFileName) (List.mem_singleton_self _)
  have straightToo := plainToo.straight (work.child Manifest.fileName) (List.mem_singleton_self _)
  obtain rfl := ((Path.names_or_link first.leads).resolve_right straight.not_link).eq
    (named.child isPlainName_source)
  obtain rfl := (((Path.names_or_link second.leads).resolve_right straightToo.not_link).of_stays
    stays).eq (named.child isPlainName_manifest)
  have apart : root ++ [(Manifest.sourceFileName : OsText)] ≠
      root ++ [(Manifest.fileName : OsText)] := ne_of_last _ _ (by decide)
  constructor
  · obtain ⟨executable, reached⟩ := first.found fun sink =>
      plain.not_sink (straight.find ((Machine.reach_eq_ok_iff ..).mpr ⟨first.leads, sink⟩))
    exact ⟨executable, (second.others _ apart).trans ((Machine.reach_eq_ok_iff ..).mp reached).2⟩
  · obtain ⟨executable, reached⟩ := second.found fun sink =>
      plainToo.not_sink (straightToo.find ((Machine.reach_eq_ok_iff ..).mpr ⟨second.leads, sink⟩))
    exact ⟨executable, ((Machine.reach_eq_ok_iff ..).mp reached).2⟩

theorem PutThroughLink.not_straight (put : PutThroughLink trace location) :
    ¬ ∀ exchange ∈ trace, exchange.IsStraight := by
  obtain ⟨path, contents, answered, before, left, member, link, -⟩ := put
  exact fun straight => (straight _ member path (List.mem_singleton_self _)).not_link link

end World

namespace Builder

/-- The part of a package build that makes the archive. -/
def compileIn (builder : Builder) (job : Job) (manifest : String) (work : WorkDirectory) :
    Task Unit := do
  writeFile (work.path.child Manifest.sourceFileName) job.source
  writeFile (work.path.child Manifest.fileName) manifest
  builder.report (.trace
    ("manifest " ++ (work.path.child Manifest.fileName).display ++ ":\n" ++ manifest))
  builder.report (.phase 4 ("Building " ++ (work.path.child Manifest.fileName).display))
  builder.callTool (builder.callIn job work) "build"

theorem buildIn_eq (builder : Builder) (job : Job) (manifest : String) (work : WorkDirectory) :
    builder.buildIn job manifest work = (do
      builder.compileIn job manifest work
      let archive ← builder.scratch.relocate (toldIn work)
      builder.report
        (.topic .build ("moved " ++ (toldIn work).display ++ " -> " ++ archive.display))
      return archive) := by
  simp only [buildIn, compileIn, bind_assoc]

theorem makesNoFile_report (builder : Builder) (event : Event) :
    (builder.report event).Asks Request.MakesNoFile :=
  .lift (.report _ _ fun _ => Request.noConfusion)

theorem makesNoFile_callTool (builder : Builder) (invocation : Invocation) (action : String) :
    (builder.callTool invocation action).Asks Request.MakesNoFile :=
  (builder.asks_callTool invocation action).mono fun _ kind => by
    rcases kind with ⟨event, rfl⟩ | rfl <;> exact fun _ => Request.noConfusion

theorem makesNoFile_compileIn (builder : Builder) (job : Job) (manifest : String)
    (work : WorkDirectory) :
    (builder.compileIn job manifest work).Asks Request.MakesNoFile := by
  refine .bind (.orInaccessible _ (.request _ fun _ => Request.noConfusion)) fun _ => ?_
  refine .bind (.orInaccessible _ (.request _ fun _ => Request.noConfusion)) fun _ => ?_
  refine .bind (builder.makesNoFile_report _) fun _ => ?_
  exact .bind (builder.makesNoFile_report _) fun _ => builder.makesNoFile_callTool _ _

end Builder

namespace World

open Machine (Touches)

variable {mishap : Mishap} {world after : World} {trace : List Exchange}

/-- Either the files could not be written, or the tool was called with both of them in place
and has the last word. -/
theorem ends_compileIn (clean : mishap.IsClean) (builder : Builder) (job : Job)
    (manifest : String) (work : WorkDirectory)
    (ended : Ends mishap world (builder.compileIn job manifest work) trace result after) :
    (∃ failure, result = .error failure ∧ callsIn trace = [] ∧
        Touches (fun location => ∃ root, work.path.Names world.machine.working root ∧
            ((location = root ++ [(Manifest.sourceFileName : OsText)] ∨
              location = root ++ [(Manifest.fileName : OsText)]) ∨ PutThroughLink trace location))
          (fun _ => False) world.machine after.machine) ∨
      ∃ machine root answered,
        PreparedWork trace world.machine machine job manifest work.path root ∧
        CallIn trace (builder.callIn job work) answered machine after.machine ∧
        result = verdict builder.settings.toolchain.packageTool "build" answered := by
  obtain ⟨first, rest, outcome, middle, rfl, wrote, later⟩ := ended.bind
  have quiet : callsIn first = [] := wrote.callsIn_eq_nil (Builder.asks_writeFile _ _).isLocal
  obtain ⟨changed, ⟨failure, rfl⟩ | ⟨rfl, ⟨_, _, asked⟩, place, written⟩⟩ :=
    ends_writeFile clean _ _ wrote
  · obtain ⟨rfl, rfl, rfl⟩ := later
    rw [List.append_nil]
    refine .inl ⟨failure, rfl, quiet,
      changed.weaken (fun location ⟨here, names, own⟩ => ?_) fun _ => id⟩
    obtain ⟨root, leads, rfl⟩ := (Path.names_child_iff _ isPlainName_source).mp names
    exact ⟨root, leads, own.imp_left .inl⟩
  obtain ⟨_, leadsThere, -⟩ := (Disk.aim_eq_ok_iff ..).mp written.leads
  obtain ⟨root, leads, -⟩ := (Path.names_child_iff _ isPlainName_source).mp
    (Path.names_of_locate leadsThere)
  obtain ⟨second, others, outcome, final, rfl, wroteToo, went⟩ := Ends.bind later
  obtain ⟨changedToo, ending⟩ := ends_writeFile clean _ _ wroteToo
  have both : Touches (fun location => (location = root ++ [(Manifest.sourceFileName : OsText)] ∨
        location = root ++ [(Manifest.fileName : OsText)]) ∨
          PutThroughLink (first ++ (second ++ others)) location)
      (fun _ => False) world.machine final.machine := by
    refine (changed.weaken (fun location => ?_) fun _ => id).trans
      (changedToo.weaken (fun location => ?_) fun _ => id)
    · rintro ⟨here, names, own⟩
      obtain rfl := names.eq (leads.child isPlainName_source)
      exact own.imp .inl (·.mono fun exchange member => by simp [member])
    · rintro ⟨here, names, own⟩
      obtain rfl := (names.of_stays changed.stays).eq (leads.child isPlainName_manifest)
      exact own.imp .inr (·.mono fun exchange member => by simp [member])
  rcases ending with ⟨failure, rfl⟩ | ⟨rfl, ⟨_, _, askedToo⟩, goal, writtenToo⟩
  · obtain ⟨rfl, rfl, rfl⟩ := went
    have quietToo : callsIn second = [] :=
      wroteToo.callsIn_eq_nil (Builder.asks_writeFile _ _).isLocal
    exact .inl ⟨failure, rfl, by rw [List.append_nil, callsIn_append, quiet, quietToo]; rfl,
      both.weaken (fun location own => ⟨root, leads, own⟩) fun _ => id⟩
  obtain ⟨_, _, _, rfl, -, wentOn⟩ := ends_report_bind went
  obtain ⟨_, _, _, rfl, -, calling⟩ := ends_report_bind wentOn
  obtain ⟨answered, call, decided⟩ := ends_callTool builder _ _ calling
  have files := filesKept written writtenToo
  exact .inr ⟨final.machine, root, answered,
    ⟨leads, both, fun plain => stand_of_written written writtenToo changed.stays leads
        (plain _ (List.mem_append_left _ asked))
        (plain _ (List.mem_append_right _ (List.mem_append_left _ askedToo))),
      fun keeps => (files keeps).1, fun keeps => (files keeps).2⟩,
    call.mono fun exchange member => by simp [member], decided⟩

/-- Until the tool is called, nothing has changed but where the two files were put. -/
theorem ends_compileIn_written (clean : mishap.IsClean) (builder : Builder) (job : Job)
    (manifest : String) (work : WorkDirectory)
    (ended : Ends mishap world (builder.compileIn job manifest work) trace result after) :
    ∃ written : Machine,
      (∀ path place, written.aim path = .ok place ↔ world.machine.aim path = .ok place) ∧
      Touches (written.FilesLead work.path) (fun _ => False) world.machine written ∧
      ((∃ failure, result = .error failure) ∧ after.machine = written ∨
        ∃ answered, CallIn trace (builder.callIn job work) answered written after.machine) := by
  obtain ⟨first, rest, outcome, middle, rfl, wrote, later⟩ := ended.bind
  rcases ends_writeFile_cases clean _ _ wrote with
    ⟨⟨failure, rfl⟩, same⟩ | ⟨rfl, -, place, written, touches⟩
  · obtain ⟨-, rfl, rfl⟩ := later
    exact ⟨_, fun _ _ => .rfl, .refl _, .inl ⟨⟨failure, rfl⟩, same⟩⟩
  obtain ⟨second, others, outcome, final, rfl, wroteToo, went⟩ := Ends.bind later
  have source : middle.machine.aim (work.path.child Manifest.sourceFileName) = .ok place :=
    (written.aims _ _).mpr written.leads
  rcases ends_writeFile_cases clean _ _ wroteToo with
    ⟨⟨failure, rfl⟩, same⟩ | ⟨rfl, -, goal, writtenToo, touchesToo⟩
  · obtain ⟨-, rfl, rfl⟩ := went
    refine ⟨_, written.aims, touches.weaken (fun location => ?_) fun _ => id,
      .inl ⟨⟨failure, rfl⟩, same⟩⟩
    rintro rfl
    exact .inl source
  obtain ⟨_, _, _, rfl, -, wentOn⟩ := ends_report_bind went
  obtain ⟨_, _, _, rfl, -, calling⟩ := ends_report_bind wentOn
  obtain ⟨answered, call, -⟩ := ends_callTool builder _ _ calling
  refine ⟨final.machine, fun path place => (writtenToo.aims path place).trans (written.aims path place),
    (touches.weaken (fun location => ?_) fun _ => id).trans
      (touchesToo.weaken (fun location => ?_) fun _ => id),
    .inr ⟨answered, call.mono fun exchange member => by simp [member]⟩⟩
  · rintro rfl
    exact .inl ((writtenToo.aims _ _).mpr source)
  · rintro rfl
    exact .inr ((writtenToo.aims _ _).mpr writtenToo.leads)

/-- The archive is handed on from where the tool was to leave it. -/
theorem ends_buildIn (builder : Builder) (job : Job) (manifest : String) (work : WorkDirectory) :
    Ends mishap world (builder.buildIn job manifest work) trace result after →
      ∃ first rest outcome middle, trace = first ++ rest ∧ madeIn first = [] ∧
        Ends mishap world (builder.compileIn job manifest work) first outcome middle ∧
        match outcome with
        | .error failure => rest = [] ∧ result = .error failure ∧ after = middle
        | .ok () =>
          (∃ failure, result = .error failure ∧
              (∀ path ∈ madeIn rest, after.machine.isFile path = false) ∧
              (mishap.IsClean → Touches (fun _ => False)
                (builder.scratch.root.OnWay middle.machine.working) middle.machine
                after.machine)) ∨
            ∃ path location, result = .ok path ∧ madeIn rest = [path] ∧
              (⟨.isFile (Builder.toldIn work), true, middle.machine, middle.machine⟩ :
                Exchange) ∈ rest ∧
              (mishap.IsClean → Relocated world.names builder.scratch.root
                (Builder.toldIn work) middle.machine after.machine path location) := by
  intro ended
  rw [Builder.buildIn_eq] at ended
  obtain ⟨first, rest, outcome, middle, rfl, compiled, later⟩ := ended.bind
  refine ⟨first, rest, outcome, middle, rfl,
    compiled.madeIn_eq_nil (builder.makesNoFile_compileIn ..), compiled, ?_⟩
  rcases outcome with failure | ⟨⟩
  · exact later
  obtain ⟨second, last, outcome, final, rfl, moved, went⟩ := Ends.bind later
  rcases ends_relocate builder.scratch _ moved with
    ⟨failure, rfl, gone, touches⟩ | ⟨path, location, rfl, made, asked, relocated⟩
  · obtain ⟨rfl, rfl, rfl⟩ := went
    rw [List.append_nil]
    exact .inl ⟨failure, rfl, gone, touches⟩
  · obtain ⟨reports, none, events, rfl, told, wentOn⟩ := ends_report_bind went
    obtain ⟨rfl, rfl, rfl⟩ := ends_pure wentOn
    refine .inr ⟨path, location, rfl, ?_, List.mem_append_left _ asked, fun clean => ?_⟩
    · rw [madeIn_append, made, List.append_nil,
        madeIn_eq_nil fun exchange member => (told exchange member).makesNoFile]
      rfl
    · have sameNames : middle.names = world.names := (World.Runs.fixed compiled).1
      rw [← sameNames]
      exact relocated clean

theorem runs_discardTree
    (ran : Runs mishap world (Task.requestAll [.discardTree path]) trace value after) :
    trace = [⟨.discardTree path, (), world.machine, after.machine⟩] ∧
      after.machine = world.machine.withDisk
        (world.machine.disk.removeTree world.machine.working path).2 := by
  obtain ⟨first, rest, done, between, rfl, asked, later⟩ := ran.bind
  obtain ⟨rfl, -, left⟩ | ⟨_, _, ⟨⟩, _⟩ := runs_request asked
  obtain ⟨rfl, -, rfl⟩ := runs_pure later
  exact ⟨rfl, by rw [left]; rfl⟩

theorem runs_givenUp (work : WorkDirectory)
    (ran : Runs mishap world (Task.requestAll work.givenUp) trace value after) :
    match work with
    | .fixed _ => trace = [] ∧ after = world
    | .unique path => trace = [⟨.discardTree path, (), world.machine, after.machine⟩] ∧
        after.machine = world.machine.withDisk
          (world.machine.disk.removeTree world.machine.working path).2 := by
  cases work with
  | fixed path =>
    obtain ⟨rfl, -, rfl⟩ := runs_pure ran
    exact ⟨rfl, rfl⟩
  | unique path => exact runs_discardTree ran

theorem runs_removeTree {answered : Except SystemError Unit}
    (ran : Runs mishap world (Program.request (.removeTree path)) trace answered after) :
    trace = [⟨.removeTree path, answered, world.machine, after.machine⟩] ∧
      (answered = .ok () → world.machine.disk.removeTree world.machine.working path =
        (.ok (), after.machine.disk)) ∧
      (mishap.IsClean → Touches (path.Contains world.machine.working) (fun _ => False)
        world.machine after.machine) := by
  rcases runs_request ran with ⟨rfl, told, left⟩ | ⟨cause, left, refusal, harm, rfl, rfl⟩
  · refine ⟨rfl, fun success => ?_, fun _ => ?_⟩
    · have answered : (world.machine.disk.removeTree world.machine.working path).1 = .ok () :=
        told.symm.trans success
      rw [left, ← answered]
      rfl
    · rw [left]
      exact answer_touches world (.removeTree path)
  · cases refusal
    exact ⟨rfl, nofun, fun clean => clean _ _ _ harm ▸ .refl _⟩

/-- A build is over when the directory is removed or could not be. -/
theorem ends_removeWork (work : WorkDirectory)
    (ended : Ends mishap world work.remove trace result after) :
    ∃ answered : Except SystemError Unit,
      trace = [⟨.removeTree work.path, answered, world.machine, after.machine⟩] ∧
      (result = .ok () ↔ answered = .ok ()) ∧
      (answered = .ok () → world.machine.disk.removeTree world.machine.working work.path =
        (.ok (), after.machine.disk)) ∧
      (mishap.IsClean → Touches (work.path.Contains world.machine.working) (fun _ => False)
        world.machine after.machine) := by
  cases work with
  | unique path =>
    rw [Ends, WorkDirectory.remove, ExceptT.run_mk] at ended
    obtain ⟨first, rest, answered, between, rfl, ran, last⟩ := ended.bind
    obtain ⟨rfl, removed⟩ := runs_removeTree ran
    cases answered with
    | error cause =>
      obtain ⟨rfl, rfl, rfl⟩ := runs_pure last
      exact ⟨_, rfl, by simp, removed⟩
    | ok done =>
      obtain ⟨rfl, rfl, rfl⟩ := runs_pure last
      exact ⟨_, rfl, by simp, removed⟩
  | fixed path =>
    obtain ⟨answered, ran, rfl⟩ := ends_orInaccessible ended
    obtain ⟨rfl, removed⟩ := runs_removeTree ran
    refine ⟨answered, rfl, ?_, removed⟩
    cases answered <;> simp

/-- How a package build goes on from the outcome of the work in its directory: after a failure it
gives the directory up, or else it removes it and reports the archive. -/
def Concludes (mishap : Mishap) (work : WorkDirectory) (built : World)
    (outcome : Except Failure Path) (trace : List Exchange) (result : Except Failure Path)
    (after : World) : Prop :=
  match outcome with
  | .error failure => result = .error failure ∧
      Runs mishap built (Task.requestAll work.givenUp) trace () after
  | .ok archive => ∃ removed, Ends mishap built work.remove trace removed after ∧
      result = removed.map fun _ => archive

/-- A package build makes a directory, works in it, and then gives it up or removes it. -/
theorem ends_buildPackage (builder : Builder) (job : Job) (manifest : String) :
    Ends mishap world (builder.buildPackage job manifest) trace result after →
      (∃ failure, result = .error failure ∧
        Ends mishap world (WorkDirectory.make job.workRoot builder.settings.toolchain.workMode
          builder.settings.toolchain.workName) trace (.error failure) after) ∨
      ∃ first inside rest work made outcome built, trace = first ++ (inside ++ rest) ∧
        Ends mishap world (WorkDirectory.make job.workRoot builder.settings.toolchain.workMode
          builder.settings.toolchain.workName) first (.ok work) made ∧
        Ends mishap made (builder.buildIn job manifest work) inside outcome built ∧
        Concludes mishap work built outcome rest result after := by
  intro ended
  rw [Builder.buildPackage_eq] at ended
  obtain ⟨first, later, outcome, made, rfl, making, ended⟩ := ended.bind
  cases outcome with
  | error failure =>
    obtain ⟨rfl, rfl, rfl⟩ := ended
    rw [List.append_nil]
    exact .inl ⟨failure, rfl, making⟩
  | ok work =>
    obtain ⟨second, rest, outcome, cleaned, rfl, handing, went⟩ := Ends.bind ended
    obtain ⟨inside, given, built, rfl, building, gaveUp⟩ := ends_onFailure handing
    cases outcome with
    | error failure =>
      obtain ⟨rfl, rfl, rfl⟩ := went
      rw [List.append_nil]
      exact .inr ⟨first, inside, given, work, made, _, built, rfl, making, building, rfl, gaveUp⟩
    | ok archive =>
      obtain ⟨rfl, rfl⟩ := gaveUp
      obtain ⟨third, last, removed, final, rfl, removing, wentOn⟩ := Ends.bind went
      have finished : last = [] ∧ result = removed.map (fun _ => archive) ∧ after = final := by
        cases removed with
        | error failure => exact wentOn
        | ok done => exact ends_pure wentOn
      obtain ⟨rfl, rfl, rfl⟩ := finished
      exact .inr ⟨first, inside, third, work, made, _, cleaned, by simp, making, building, removed,
        removing, rfl⟩

theorem ends_build (builder : Builder) (job : Job)
    (ended : Ends mishap world (builder.build job) trace result after) :
    ∃ first rest events, trace = first ++ rest ∧
      (∀ exchange ∈ first, exchange.request.IsReport) ∧
      match job.manifest with
      | none => Ends mishap { world with events } (builder.buildDirect job) rest result after
      | some manifest => Ends mishap { world with events } (builder.buildPackage job manifest) rest
          result after := by
  obtain ⟨first, rest, events, split, reports, later⟩ := ends_report_bind ended
  refine ⟨first, rest, events, split, reports, ?_⟩
  cases described : job.manifest with
  | none => rw [described] at later; exact later
  | some manifest => rw [described] at later; exact later

end World

end FragmentBuild
