import FragmentBuild.Proofs.OwnFiles

/-! Builds on a disk that is shared. A build calls its tool on its own source and manifest, and
the archive that it hands on is the one that its own tool has left. -/
namespace FragmentBuild

/-- A tool that is called finds what the job has in store. -/
structure ReadsJob (job : Job) (invocation : Invocation) (machine : Machine) : Prop where
  source : invocation.sourceText? machine = some job.source
  manifest : invocation.manifestText? machine = job.manifest

namespace Stage

/-- Between two stages a program has called a tool. -/
structure Called (site : Site) (first last : Stage) (invocation : Invocation)
    (before left : Machine) : Prop where
  called : ∃ answered, World.CallIn last.trace invocation answered before left
  found : first.Leads site before
  keeps : invocation.KeepsToOutput before left
  tree : left.disk.IsTree
  since : Undisturbed (Covered first.held) site.OnWay left last.machine
  moves : first.Moves site (invocation.Output before.working) first.held last

variable {site : Site} {places : Location → Prop} {held : List Holding}
  {first middle last : Stage}

theorem Moves.passes (moves : first.Moves site places held middle)
    (passes : middle.Passes site last) (inside : ∀ location, Covered first.held location →
      ¬ places location → Covered held location) : first.Moves site places held last := by
  have both := moves.trans passes inside
  rw [moves.has] at both
  exact ⟨both.leads.narrow fun _ own => ⟨own.1, fun here => own.2 (here.resolve_right id)⟩,
    both.has, both.trace, both.sound⟩

theorem Called.passes (called : first.Called site middle invocation before left)
    (passes : middle.Passes site last) : first.Called site last invocation before left where
  called := called.called.imp fun _ call => call.mono passes.trace
  found := called.found
  keeps := called.keeps
  tree := called.tree
  since := called.since.trans (passes.leads.narrow fun _ => called.moves.has ▸ id)
  moves := called.moves.passes passes fun _ covered _ => covered

theorem Passes.called (passes : first.Passes site middle)
    (called : middle.Called site last invocation before left) :
    first.Called site last invocation before left where
  called := called.called
  found := passes.leads.trans (called.found.narrow fun _ => passes.has ▸ id)
  keeps := called.keeps
  tree := called.tree
  since := called.since.narrow fun _ => passes.has ▸ id
  moves := passes.has ▸ passes.then called.moves

/-- An archive that a build hands on, with all that its own tool has left at its output; a
compiler finds an empty file there. -/
structure Delivers (site : Site) (job : Job) (stage : Stage) (archive : Path)
    (invocation : Invocation) (before left : Machine) (contents : ByteArray) : Prop where
  called : ∃ answered, World.CallIn stage.trace invocation answered before left
  made : ∃ location executable, left.find (ScriptedTool.archivePath invocation) =
    .ok (location, .file contents executable)
  reserved : job.manifest = none → ∃ location executable,
    before.find (ScriptedTool.archivePath invocation) = .ok (location, .file .empty executable)
  has : stage.HasFile site archive contents

theorem Delivers.moves (delivers : first.Delivers site job archive invocation before left contents)
    (moves : first.Moves site places held last) (member : .file archive ∈ held)
    (apart : ¬ places archive.place) :
    last.Delivers site job archive invocation before left contents where
  called := delivers.called.imp fun _ call => call.mono moves.trace
  made := delivers.made
  reserved := delivers.reserved
  has := delivers.has.moves moves member apart

/-- What is known of a build that has ended, if it was a success. -/
def Delivered (site : Site) (job : Job) (result : Except Failure Path) (stage : Stage) : Prop :=
  ∀ archive, result = .ok archive → ∃ invocation before left contents,
    stage.Delivers site job archive invocation before left contents

end Stage

namespace Secures

variable {mishap : Mishap} {site : Site} {reads : Invocation → Machine → Prop} {stage : Stage}

/-- A tool that writes only where its caller has something may be called. -/
theorem callTool (clean : mishap.IsClean) (sound : stage.Sound site) (builder : Builder)
    (invocation : Invocation) (action : String)
    (own : ∀ working location, invocation.Output working location →
      Covered stage.held location)
    (finds : ∀ machine, stage.Leads site machine → reads invocation machine)
    (stands : ∀ before left, stage.Leads site before → invocation.KeepsToOutput before left →
      ∀ holding ∈ stage.held, invocation.Output before.working holding.place →
        holding.Stands left.disk) :
    Secures mishap site reads
      (fun _ later => ∃ before left, stage.Called site later invocation before left)
      (builder.callTool invocation action).run stage := by
  rw [Builder.callTool]
  refine (report clean sound _ _).lift fun _ told passes => ?_
  have called : Secures mishap site reads
      (fun _ later => ∃ before left, told.Called site later invocation before left)
      (Program.request (.call invocation)) told := by
    refine request fun world answer after turn => ?_
    have leads := passes.leads.trans (turn.leads.narrow fun _ => passes.has ▸ id)
    have keeps := turn.fair.output invocation answer _ _ rfl
    have same : (Turn.ends told world (.call invocation) answer after).held = told.held :=
      told.held_next _
    have settled := turn.settles reads _ clean passes.now (turn.changes clean)
      (fun location output => passes.has ▸ own _ location output)
      (fun _ member => same ▸ member)
      (fun holding member output =>
        stands _ _ leads keeps holding (passes.has ▸ same ▸ member) output)
      fun other named => by cases named; exact finds _ leads
    rw [same] at settled
    refine ⟨settled.1, _, _, ⟨answer, ?_, ?_⟩, turn.leads, keeps, turn.left, .refl _, settled.2⟩
    · exact List.mem_append_right _ List.mem_cons_self
    · rcases turn.gives.cases clean with ⟨-, rfl⟩ | ⟨⟨_, ⟨⟩⟩, -⟩
      rfl
  refine called.lift fun answer later reached => ?_
  obtain ⟨before, left, call⟩ := reached
  have whole := passes.called call
  cases answer with
  | error cause => exact pure ⟨before, left, whole⟩
  | ok answered =>
    dsimp only
    split
    · exact (report clean whole.moves.now _ _).lift fun _ last further =>
        pure ⟨before, left, whole.passes further⟩
    · exact pure ⟨before, left, whole⟩

/-- The compiler is called on the build's own source and leaves the build's own archive. -/
theorem callCompiler (clean : mishap.IsClean) (sound : stage.Sound site) (builder : Builder)
    (job : Job) (event : Event) (direct : job.manifest = none)
    (source : stage.HasFile site sourcePath job.source.toUTF8)
    (archive : stage.HasFile site archivePath .empty)
    (alone : ∀ holding ∈ stage.held, holding.place = archivePath.place →
      holding = .file archivePath) :
    Secures mishap site (ReadsJob job)
      (fun _ later => later.Sound site ∧ later.held = stage.held ∧
        ∃ invocation before left contents,
          later.Delivers site job archivePath invocation before left contents)
      (do
        builder.report event
        builder.callTool (builder.callFor job sourcePath archivePath) "compilation" :
          Task Unit).run stage := by
  have output (working : Option Location) (location : Location) :
      (builder.callFor job sourcePath archivePath).Output working location ↔
        location = archivePath.place := by
    rw [builder.output_callFor, Path.names_place archive.absolute]
  have toldPath : ScriptedTool.archivePath (builder.callFor job sourcePath archivePath) =
      archivePath := Builder.archivePath_compilerCall ..
  refine (report clean sound _ event).lift fun _ told passes => ?_
  have ours := archive.passes passes
  have finds (machine : Machine) (leads : told.Leads site machine) :
      ReadsJob job (builder.callFor job sourcePath archivePath) machine := by
    obtain ⟨executable, found⟩ := (source.passes passes).leads leads
    refine ⟨?_, direct.symm⟩
    rw [Invocation.sourceText?, Builder.callFor,
      Builder.sourcePath?_compilerCall _ _ _ _ archive.absolute]
    exact Machine.textAt?_of_reach (Machine.reach_of_find found)
  refine (callTool clean passes.now builder _ _ (fun working location here =>
    ⟨_, ours.member, (output working location).mp here⟩) finds ?_).mono fun _ later reached => ?_
  · intro before left leads keeps holding member here
    rw [alone holding (passes.has ▸ member) ((output _ _).mp here)]
    obtain ⟨executable, found⟩ := ours.leads leads
    rcases keeps.file rfl _ ((output _ _).mpr rfl) with same | written
    · exact ⟨_, _, same.trans ((Machine.find_eq_ok_iff ..).mp found).2⟩
    · exact written
  · obtain ⟨before, left, call⟩ := reached
    obtain ⟨answered, made⟩ := call.called
    obtain ⟨executable, reserved⟩ := ours.leads call.found
    obtain ⟨-, contents, mode, found⟩ := World.found_of_callFor call.keeps made.changed reserved
    refine ⟨call.moves.now, call.moves.has.trans passes.has, _, before, left, contents,
      ⟨answered, made⟩, ⟨_, _, toldPath ▸ found⟩, fun _ => ⟨_, _, toldPath ▸ reserved⟩, ?_⟩
    exact ⟨call.moves.has ▸ ours.member, archive.child, archive.absolute, mode,
      ours.since call.since found⟩

/-- What is between the source file and the archive of a direct build. A failure leaves the build
with its source file alone. -/
theorem compileDirect (clean : mishap.IsClean) (sound : stage.Sound site) (builder : Builder)
    (job : Job) (becomes : builder.scratch.root.Becomes stage.machine.working site.scratch)
    (direct : job.manifest = none) (held : stage.held = [.file source])
    (file : stage.HasFile site source job.source.toUTF8) :
    Secures mishap site (ReadsJob job)
      (fun result later => later.Sound site ∧
        (∀ failure, result = .error failure → later.held = [.file source]) ∧
        ∀ archive, result = .ok archive → later.held = [.file archive, .file source] ∧
          archive.place ≠ source.place ∧ ∃ invocation before left contents,
            later.Delivers site job archive invocation before left contents)
      (builder.compileDirect job source).run stage := by
  rw [Builder.compileDirect]
  refine (newFile clean sound builder.scratch becomes (by decide)).thenTask
    (fun archive made reached => ?_) fun failure later reached => ?_
  · rcases reached with ⟨_, ⟨⟩, -⟩ | ⟨_, ⟨⟩, new⟩
    have heldNow : made.held = [.file archive, .file source] := by rw [new.moves.has, held]
    have apart : archive.place ≠ source.place := fun same =>
      new.fresh (held ▸ ⟨_, List.mem_cons_self, same⟩)
    have other : Holding.file source ≠ .file archive := by
      rintro ⟨⟩
      exact apart rfl
    have alone : ∀ holding ∈ made.held, holding.place = archive.place →
        holding = .file archive := by
      rw [new.moves.has]
      exact new.alone
    have compiled : Secures mishap site (ReadsJob job)
        (fun result later => later.Sound site ∧
          (∀ failure, result = .error failure → later.held = [.file source]) ∧
          (result = .ok () → later.held = [.file archive, .file source] ∧
            ∃ invocation before left contents,
              later.Delivers site job archive invocation before left contents))
        (Task.onFailure
          (do
            builder.report (.phase 4 ("Compiling " ++ source.display ++ " -> " ++ archive.display))
            builder.callTool (builder.callFor job source archive) "compilation")
          [.discardFile archive]).run made := by
      have called := callCompiler clean new.moves.now builder job
        (.phase 4 ("Compiling " ++ source.display ++ " -> " ++ archive.display)) direct
        (file.moves new.moves (by simp [held]) id) new.hasFile alone
      refine called.onFailure (fun value later reached => ?_) fun failure later reached => ?_
      · exact ⟨reached.1, nofun, fun _ => ⟨reached.2.1.trans heldNow, reached.2.2⟩⟩
      · obtain ⟨now, same, -⟩ := reached
        refine (discardFile clean now new.absolute ?_ (same ▸ alone)).mono
          fun _ last moves => ⟨moves.now, fun _ _ => ?_, nofun⟩
        · rw [same, heldNow]
          exact List.mem_cons_self
        · rw [moves.has, same, heldNow]
          simp [other]
    refine compiled.thenTask (fun _ later reached => ?_) fun failure later reached => ?_
    · refine ⟨reached.1, nofun, ?_⟩
      rintro _ ⟨⟩
      obtain ⟨heldThen, delivers⟩ := reached.2.2 rfl
      exact ⟨heldThen, apart, delivers⟩
    · exact ⟨reached.1, fun _ _ => reached.2.1 failure rfl, nofun⟩
  · rcases reached with ⟨_, ⟨⟩, passes⟩ | ⟨_, ⟨⟩, -⟩
    exact ⟨passes.now, fun _ _ => passes.has.trans held, nofun⟩

theorem buildDirect (clean : mishap.IsClean) (sound : stage.Sound site) (builder : Builder)
    (job : Job) (becomes : builder.scratch.root.Becomes stage.machine.working site.scratch)
    (direct : job.manifest = none) (held : stage.held = []) :
    Secures mishap site (ReadsJob job) (Stage.Delivered site job)
      (builder.buildDirect job).run stage := by
  rw [Builder.buildDirect_eq]
  refine (sourceFile clean sound builder.scratch becomes job.source).thenTask
    (fun source written reached => ?_) fun _ _ _ => nofun
  obtain ⟨moves, file⟩ := reached source rfl
  have has : written.held = [.file source] := moves.has.trans (by rw [held])
  have placed := becomes.of_stays moves.leads.stays
  refine (compileDirect clean moves.now builder job placed direct has file).thenDiscard
    fun result compiled reached => ?_
  obtain ⟨sound, failed, ok⟩ := reached
  cases result with
  | error failure =>
    have left := failed failure rfl
    exact (discardFile clean sound file.absolute (by simp [left]) (by simp [left])).mono
      fun _ _ _ => nofun
  | ok archive =>
    obtain ⟨left, apart, invocation, before, after, contents, delivers⟩ := ok archive rfl
    refine (discardFile clean sound file.absolute (by simp [left]) ?_).mono fun _ last moves => ?_
    · rw [left]
      intro holding member same
      rcases List.mem_cons.mp member with rfl | own
      · exact absurd same apart
      · exact List.mem_singleton.mp own
    · rintro _ ⟨⟩
      refine ⟨invocation, before, after, contents, delivers.moves moves ?_ apart⟩
      refine List.mem_filter.mpr ⟨delivers.has.member, ?_⟩
      refine decide_eq_true fun same => apart ?_
      rw [Holding.file.inj same]

end Secures

end FragmentBuild
