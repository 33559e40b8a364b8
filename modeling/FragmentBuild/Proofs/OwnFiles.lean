import FragmentBuild.Proofs.OwnRequests

/-! Scratch files and working directories on a disk that is shared. Whoever asks for one gets a
file or a directory that nobody else has, and finds there what it has put there. -/
namespace FragmentBuild

namespace Secures

variable {mishap : Mishap} {site : Site} {reads : Invocation → Machine → Prop} {stage : Stage}

theorem request {request : Request} {post : request.Answer → Stage → Prop}
    (turns : ∀ world answer after, Turn mishap site stage world request answer after →
      Exchange.Behaves site reads stage.held ⟨request, answer, world.machine, after.machine⟩ ∧
        post answer (Turn.ends stage world request answer after)) :
    Secures mishap site reads post (Program.request request) stage :=
  turns

theorem pure {value : α} {post : α → Stage → Prop} (holds : post value stage) :
    Secures mishap site reads post (Pure.pure value) stage :=
  holds

variable {post : Except Failure β → Stage → Prop}

theorem thenTask {task : Task α} {next : α → Task β} {middle : Except Failure α → Stage → Prop}
    (first : Secures mishap site reads middle task.run stage)
    (ok : ∀ value later, middle (.ok value) later →
      Secures mishap site reads post (next value).run later)
    (error : ∀ failure later, middle (.error failure) later → post (.error failure) later) :
    Secures mishap site reads post (task >>= next).run stage := by
  have unfolded : (task >>= next).run =
      task.run >>= ExceptT.bindCont (fun value => next value) := rfl
  rw [unfolded]
  refine first.bind fun outcome later reached => ?_
  cases outcome with
  | ok value => exact ok value later reached
  | error failure => exact error failure later reached

theorem lift {program : Program α} {next : α → Task β} {middle : α → Stage → Prop}
    (first : Secures mishap site reads middle program stage)
    (rest : ∀ value later, middle value later →
      Secures mishap site reads post (next value).run later) :
    Secures mishap site reads post (ExceptT.lift program >>= next).run stage := by
  have lifted : Secures mishap site reads
      (fun outcome later => ∃ value, outcome = .ok value ∧ middle value later)
      (ExceptT.lift program : Task α).run stage :=
    first.bind fun value later reached => ⟨value, rfl, reached⟩
  refine thenTask lifted ?_ ?_
  · rintro value later ⟨_, ⟨⟩, reached⟩
    exact rest value later reached
  · rintro failure later ⟨_, ⟨⟩, -⟩

theorem orInaccessible {program : Program (Except SystemError β)}
    {middle : Except SystemError β → Stage → Prop}
    (first : Secures mishap site reads middle program stage)
    (ok : ∀ value later, middle (.ok value) later → post (.ok value) later)
    (error : ∀ cause later, middle (.error cause) later →
      post (.error (.inaccessible path cause)) later) :
    Secures mishap site reads post (Task.orInaccessible path program).run stage := by
  rw [Task.orInaccessible, ExceptT.run_mk]
  refine first.bind fun outcome later reached => ?_
  cases outcome with
  | ok value => exact ok value later reached
  | error cause => exact error cause later reached

/-- What a task was to hand on is given up if the task fails. -/
theorem onFailure {task : Task β} {middle : Except Failure β → Stage → Prop}
    (first : Secures mishap site reads middle task.run stage)
    (ok : ∀ value later, middle (.ok value) later → post (.ok value) later)
    (error : ∀ failure later, middle (.error failure) later →
      Secures mishap site reads (fun _ => post (.error failure)) (Task.requestAll discarded)
        later) :
    Secures mishap site reads post (task.onFailure discarded).run stage := by
  rw [Task.onFailure, ExceptT.run_mk]
  refine first.bind fun outcome later reached => ?_
  cases outcome with
  | ok value => exact ok value later reached
  | error failure => exact (error failure later reached).bind fun _ _ => id

/-- What a task needed is given up when the task is done. -/
theorem thenDiscard {task : Task β} {middle : Except Failure β → Stage → Prop}
    (first : Secures mishap site reads middle task.run stage)
    (rest : ∀ outcome later, middle outcome later →
      Secures mishap site reads (fun _ => post outcome) (Task.requestAll discarded) later) :
    Secures mishap site reads post (task.thenDiscard discarded).run stage := by
  rw [Task.thenDiscard, ExceptT.run_mk]
  exact first.bind fun outcome later reached => (rest outcome later reached).bind fun _ _ => id

theorem report (clean : mishap.IsClean) (sound : stage.Sound site) (verbosity : Verbosity)
    (event : Event) :
    Secures mishap site reads (fun _ => stage.Passes site) (Program.report verbosity event)
      stage := by
  rw [Program.report]
  split
  · exact request fun world answer after turn => turn.quiet reads clean sound trivial
  · exact pure (.refl sound)

/-- The absolute form of a path is the one by which others know it. -/
theorem absolute (clean : mishap.IsClean) (sound : stage.Sound site)
    (becomes : Path.Becomes stage.machine.working path whole) :
    Secures mishap site reads
      (fun result later => stage.Passes site later ∧ ∀ found, result = .ok found → found = whole)
      (FragmentBuild.absolute path) stage := by
  rw [FragmentBuild.absolute]
  split
  · rename_i own
    refine pure ⟨.refl sound, fun found same => ?_⟩
    rw [becomes.own own]
    exact (Except.ok.inj same).symm
  · rename_i relative
    have asked : Secures mishap site reads
        (fun (answer : Except SystemError Path) later => stage.Passes site later ∧
          ∀ found, answer = .ok found → found.join path = whole)
        (Program.request .workingDirectory) stage := by
      refine request fun world answer after turn => ?_
      obtain ⟨behaves, passes⟩ := turn.quiet reads clean sound trivial
      refine ⟨behaves, passes, fun found same => ?_⟩
      rcases turn.gives.cases clean with ⟨answered, -⟩ | ⟨⟨cause, refusal⟩, -⟩
      · cases here : world.machine.working with
        | none =>
          simp only [World.answer, here] at answered
          rw [same] at answered
          cases answered
        | some location =>
          simp only [World.answer, here] at answered
          rw [same] at answered
          rw [Except.ok.inj answered]
          exact (becomes.below (by simpa using relative) location
            (turn.leads.stays location here)).symm
      · cases refusal
        cases same
    refine asked.bind fun answer later reached => ?_
    cases answer with
    | error cause => exact pure ⟨reached.1, by rintro _ ⟨⟩⟩
    | ok found =>
      refine pure ⟨reached.1, fun whole same => ?_⟩
      rw [← Except.ok.inj same]
      exact reached.2 found rfl

theorem freshName (clean : mishap.IsClean) (sound : stage.Sound site) :
    Secures mishap site reads (fun name later => stage.Passes site later ∧ IsGivenName name)
      (Program.request .freshName) stage := by
  refine request fun world answer after turn => ?_
  obtain ⟨behaves, passes⟩ := turn.quiet reads clean sound trivial
  refine ⟨behaves, passes, ?_⟩
  rcases turn.gives.cases clean with ⟨answered, -⟩ | ⟨⟨cause, ⟨⟩⟩, -⟩
  obtain rfl : answer = world.names world.named := answered
  exact turn.names _

/-- Whoever asks for a new file gets one that nobody else has. -/
theorem freshFile (clean : mishap.IsClean) (sound : stage.Sound site)
    (becomes : root.Becomes stage.machine.working site.scratch)
    (plain : slashByte ∉ (ending : OsText).toList) (attempts : Nat) :
    Secures mishap site reads
      (fun result later => (∃ cause, result = .error cause ∧ stage.Passes site later) ∨
        ∃ path, result = .ok path ∧ stage.NewFile site later path)
      (Scratch.freshFile root ending attempts) stage := by
  induction attempts generalizing stage with
  | zero => exact pure (.inl ⟨_, rfl, .refl sound⟩)
  | succ attempts ih =>
    rw [Scratch.freshFile]
    refine (freshName clean sound).bind fun name named reached => ?_
    obtain ⟨passed, given⟩ := reached
    have isName := isPlainName_scratchFile given.plain plain
    have child := (becomes.of_stays passed.leads.stays).child isName.plain
    refine (absolute clean passed.now child).bind fun result placed reached => ?_
    obtain ⟨passedToo, found⟩ := reached
    have passes := passed.trans passedToo
    cases result with
    | error cause => exact pure (.inl ⟨cause, rfl, passes⟩)
    | ok path =>
      have made : Secures mishap site reads
          (fun (answer : Except SystemError Unit) later =>
            (∃ cause, answer = .error cause ∧ placed.Passes site later) ∨
              answer = .ok () ∧ placed.NewFile site later path)
          (Program.request (.createFile path)) placed :=
        request fun world answer after turn =>
          turn.createFile reads clean passes.now becomes.absolute isName (found path rfl)
      refine made.bind fun answer later reached => ?_
      rcases reached with ⟨cause, rfl, passesToo⟩ | ⟨rfl, new⟩
      · have passed := passes.trans passesToo
        cases cause with
        | alreadyExists =>
          refine (ih passed.now (becomes.of_stays passed.leads.stays)).mono
            fun result last reached => ?_
          rcases reached with ⟨cause, rfl, further⟩ | ⟨path, rfl, new⟩
          · exact .inl ⟨cause, rfl, passed.trans further⟩
          · exact .inr ⟨path, rfl, passed.newFile new⟩
        | _ => exact pure (.inl ⟨_, rfl, passed⟩)
      · exact pure (.inr ⟨path, rfl, passes.newFile new⟩)

theorem newFile (clean : mishap.IsClean) (sound : stage.Sound site) (scratch : Scratch)
    (becomes : scratch.root.Becomes stage.machine.working site.scratch)
    (plain : slashByte ∉ (ending : OsText).toList) :
    Secures mishap site reads
      (fun result later => (∃ failure, result = .error failure ∧ stage.Passes site later) ∨
        ∃ path, result = .ok path ∧ stage.NewFile site later path)
      (scratch.newFile ending).run stage := by
  have rooted : Secures mishap site reads (fun _ => stage.Passes site) scratch.makeRoot.run
      stage := by
    have asked : Secures mishap site reads (fun _ => stage.Passes site)
        (Program.request (.makeDirectories scratch.root)) stage :=
      request fun world answer after turn => turn.quiet reads clean sound trivial
    exact asked.orInaccessible (fun _ _ => id) fun _ _ => id
  refine rooted.thenTask (fun _ later passes => ?_) fun failure later passes =>
    .inl ⟨failure, rfl, passes⟩
  refine (freshFile clean passes.now (becomes.of_stays passes.leads.stays) plain _).orInaccessible
    (fun path last reached => ?_) fun cause last reached => ?_
  · rcases reached with ⟨cause, ⟨⟩, -⟩ | ⟨_, ⟨⟩, new⟩
    exact .inr ⟨path, rfl, passes.newFile new⟩
  · rcases reached with ⟨_, ⟨⟩, further⟩ | ⟨_, ⟨⟩, -⟩
    exact .inl ⟨_, rfl, passes.trans further⟩

theorem discardFile (clean : mishap.IsClean) (sound : stage.Sound site)
    (absolute : path.isAbsolute = true) (own : .file path ∈ stage.held)
    (alone : ∀ holding ∈ stage.held, holding.place = path.place → holding = .file path) :
    Secures mishap site reads
      (fun _ => stage.Moves site (· = path.place) (stage.held.filter (· ≠ .file path)))
      (Task.requestAll [.discardFile path]) stage := by
  have gone : Secures mishap site reads
      (fun _ => stage.Moves site (· = path.place) (stage.held.filter (· ≠ .file path)))
      (Program.request (.discardFile path)) stage :=
    request fun world answer after turn => turn.removes reads (.file path) clean sound
      (fun location names => (Path.names_place absolute _).mp names)
      (fun location here => ⟨_, own, here⟩) rfl alone nofun
  exact gone.bind fun _ _ => id

theorem discardTree (clean : mishap.IsClean) (sound : stage.Sound site)
    (absolute : path.isAbsolute = true) (own : .tree path ∈ stage.held)
    (alone : ∀ holding ∈ stage.held, path.place <+: holding.place → holding = .tree path) :
    Secures mishap site reads
      (fun _ => stage.Moves site (path.place <+: ·) (stage.held.filter (· ≠ .tree path)))
      (Task.requestAll [.discardTree path]) stage := by
  have gone : Secures mishap site reads
      (fun _ => stage.Moves site (path.place <+: ·) (stage.held.filter (· ≠ .tree path)))
      (Program.request (.discardTree path)) stage :=
    request fun world answer after turn => turn.removes reads (.tree path) clean sound
      (fun location contains => (Path.contains_place absolute _).mp contains)
      (fun location here => ⟨_, own, here⟩) rfl alone nofun
  exact gone.bind fun _ _ => id

/-- What is written to a file of one's own is found there. -/
theorem write (clean : mishap.IsClean) (sound : stage.Sound site)
    (absolute : path.isAbsolute = true) (own : Covered stage.held path.place)
    (noSink : stage.machine.disk.get? path.place ≠ some .sink) :
    Secures mishap site reads
      (fun result later => (∃ failure, result = .error failure ∧ stage.Passes site later) ∨
        result = .ok () ∧ stage.Moves site (· = path.place) stage.held later ∧
          ∃ executable, later.machine.find path = .ok (path.place, .file contents executable))
      (Task.orInaccessible path (Program.request (.write path contents))).run stage := by
  have written : Secures mishap site reads
      (fun (answer : Except SystemError Unit) later =>
        (∃ cause, answer = .error cause ∧ stage.Passes site later) ∨
        answer = .ok () ∧ stage.Moves site (· = path.place) stage.held later ∧
          ∃ executable, later.machine.find path = .ok (path.place, .file contents executable))
      (Program.request (.write path contents)) stage :=
    request fun world answer after turn => turn.write reads clean sound absolute own noSink
  refine written.orInaccessible (fun value later reached => ?_) fun cause later reached => ?_
  · rcases reached with ⟨cause, ⟨⟩, -⟩ | ⟨-, wrote⟩
    exact .inr ⟨rfl, wrote⟩
  · rcases reached with ⟨_, ⟨⟩, passes⟩ | ⟨⟨⟩, -⟩
    exact .inl ⟨_, rfl, passes⟩

/-- Whoever writes a source file has it, and finds in it what was written. -/
theorem sourceFile (clean : mishap.IsClean) (sound : stage.Sound site) (scratch : Scratch)
    (becomes : scratch.root.Becomes stage.machine.working site.scratch) (text : String) :
    Secures mishap site reads
      (fun result later => ∀ path, result = .ok path →
        stage.Moves site (fun _ => False) (.file path :: stage.held) later ∧
          later.HasFile site path text.toUTF8)
      (scratch.sourceFile text).run stage := by
  rw [Scratch.sourceFile]
  refine (newFile clean sound scratch becomes (by decide)).thenTask (fun path made reached => ?_)
    (by rintro failure later - _ ⟨⟩)
  rcases reached with ⟨failure, ⟨⟩, -⟩ | ⟨_, ⟨⟩, new⟩
  have own := new.hasFile
  have written : Secures mishap site reads
      (fun result later => result = .ok () →
        stage.Moves site (fun _ => False) (.file path :: stage.held) later ∧
          later.HasFile site path text.toUTF8)
      ((Task.orInaccessible path (Program.request (.write path text.toUTF8))).onFailure
        [.discardFile path]).run made := by
    have noSink : made.machine.disk.get? path.place ≠ some .sink := by
      rw [((Machine.find_eq_ok_iff ..).mp new.found).2]
      rintro ⟨⟩
    refine (write clean new.moves.now new.absolute ⟨_, own.member, rfl⟩ noSink).onFailure
      (fun value later reached => ?_) fun failure later reached => ?_
    · rcases reached with ⟨_, ⟨⟩, -⟩ | ⟨-, moves, found⟩
      rw [new.moves.has] at moves
      refine fun _ => ⟨(new.moves.trans moves fun _ covered _ =>
        covered.mono (List.subset_cons_self ..)).forget ?_, ?_, new.child, new.absolute, found⟩
      · rintro _ (⟨⟨⟩⟩ | rfl)
        exact new.fresh
      · exact moves.has ▸ List.mem_cons_self
    · rcases reached with ⟨_, ⟨⟩, passes⟩ | ⟨⟨⟩, -⟩
      refine (discardFile clean passes.now new.absolute (passes.has ▸ own.member) ?_).mono
        (by rintro _ _ - ⟨⟩)
      rw [passes.has, new.moves.has]
      exact new.alone
  exact written.thenTask (fun _ last reached path same => by cases same; exact reached rfl)
    (by rintro failure last - _ ⟨⟩)

/-- Whoever asks for a directory to work in gets one that nobody else has, with nothing in it. -/
theorem freshDirectory (clean : mishap.IsClean) (sound : stage.Sound site)
    (absolute : root.isAbsolute = true) (isBase : site.bases (root.within start))
    (attempts : Nat) :
    Secures mishap site reads
      (fun result later => (∃ cause, result = .error cause ∧ stage.Passes site later) ∨
        ∃ path, result = .ok path ∧ stage.NewTree site later path ∧
          ((root.child start).IsText → path.IsText))
      (Scratch.freshDirectory root start attempts) stage := by
  induction attempts generalizing stage with
  | zero => exact pure (.inl ⟨_, rfl, .refl sound⟩)
  | succ attempts ih =>
    rw [Scratch.freshDirectory]
    refine (freshName clean sound).bind fun name named reached => ?_
    obtain ⟨passed, given⟩ := reached
    have made : Secures mishap site reads
        (fun (answer : Except SystemError Unit) later =>
          (∃ cause, answer = .error cause ∧ named.Passes site later) ∨
            answer = .ok () ∧ named.NewTree site later (root.child (start ++ name)))
        (Program.request (.makeDirectory (root.child (start ++ name)))) named :=
      request fun world answer after turn =>
        turn.makeDirectory reads clean passed.now isBase (Path.isAbsolute_join root _ absolute)
          (given.isPlainName_append (Path.lastPiece_plain start))
          (Path.child_append root (slashByte_mem_ofText.not.mpr given.plain) start)
    refine made.bind fun answer later reached => ?_
    rcases reached with ⟨cause, rfl, passesToo⟩ | ⟨rfl, new⟩
    · have passes := passed.trans passesToo
      cases cause with
      | alreadyExists =>
        refine (ih passes.now).mono fun result last reached => ?_
        rcases reached with ⟨cause, rfl, further⟩ | ⟨path, rfl, new⟩
        · exact .inl ⟨cause, rfl, passes.trans further⟩
        · exact .inr ⟨path, rfl, passes.newTree new.1, new.2⟩
      | _ => exact pure (.inl ⟨_, rfl, passes⟩)
    · exact pure (.inr ⟨_, rfl, passed.newTree new,
        fun isText => Path.isText_child_append isText name⟩)

theorem makeUnique (clean : mishap.IsClean) (sound : stage.Sound site)
    (becomes : Path.Becomes stage.machine.working parent root)
    (isBase : site.bases (root.within start)) :
    Secures mishap site reads
      (fun result later => ∀ work, result = .ok work → ∃ path, work = .unique path ∧
        stage.NewTree site later path ∧ ((root.child start).IsText → path.IsText))
      (WorkDirectory.make parent .unique start).run stage := by
  rw [WorkDirectory.make]
  have placed : Secures mishap site reads
      (fun result later => stage.Passes site later ∧ ∀ base, result = .ok base → base = root)
      (Task.orInaccessible parent (FragmentBuild.absolute parent)).run stage :=
    (absolute clean sound becomes).orInaccessible
      (fun base later reached => ⟨reached.1, fun _ same => by cases same; exact reached.2 _ rfl⟩)
      fun cause later reached => ⟨reached.1, by rintro _ ⟨⟩⟩
  refine placed.thenTask (fun base found reached => ?_) (by rintro _ _ - _ ⟨⟩)
  obtain ⟨passes, named⟩ := reached
  obtain rfl : base = root := named base rfl
  have made : Secures mishap site reads
      (fun result later => ∀ path, result = .ok path → found.NewTree site later path ∧
        ((base.child start).IsText → path.IsText))
      (Task.orInaccessible parent
        (Scratch.freshDirectory base start nameAttempts)).run found := by
    refine (freshDirectory clean passes.now becomes.absolute isBase _).orInaccessible
      (fun path later reached => ?_) (by rintro _ _ - _ ⟨⟩)
    rcases reached with ⟨_, ⟨⟩, -⟩ | ⟨_, ⟨⟩, new⟩
    rintro _ ⟨⟩
    exact new
  refine made.thenTask (fun path last reached => ?_) (by rintro _ _ - _ ⟨⟩)
  rintro _ ⟨⟩
  obtain ⟨new, isText⟩ := reached path rfl
  exact ⟨path, rfl, passes.newTree new, isText⟩

end Secures

end FragmentBuild
