import FragmentBuild.Proofs.OwnBuilds

/-! Package builds on a disk that is shared. A build works in a directory that nobody else has,
and moves its archive from there to a file that nobody else has. -/
namespace FragmentBuild

/-- The package tool finds what the job has in store if it can be told where: the path of the
folder is text. -/
def ReadsIfTold (folder : Path) (job : Job) (invocation : Invocation) (machine : Machine) : Prop :=
  (job.manifest ≠ none → folder.IsText) → ReadsJob job invocation machine

namespace Stage

/-- A directory to work in that a program has. -/
structure HasTree (site : Site) (stage : Stage) (path : Path) : Prop where
  member : .tree path ∈ stage.held
  child : ∃ base name, site.bases base ∧ Path.IsPlainName name ∧ path = base.child name
  absolute : path.isAbsolute = true
  found : stage.machine.find path = .ok (path.place, .directory)

variable {site : Site} {places : Location → Prop} {held : List Holding}
  {first last stage : Stage} {work : Path}

theorem NewTree.hasTree (new : first.NewTree site last work) : last.HasTree site work where
  member := new.moves.has ▸ List.mem_cons_self
  child := new.child
  absolute := new.absolute
  found := new.found

theorem HasTree.covers (tree : stage.HasTree site work) (inside : work.place <+: location) :
    Covered stage.held location :=
  ⟨_, tree.member, inside⟩

theorem HasTree.way (tree : stage.HasTree site work) (member : location ∈ work.way) :
    site.OnWay location ∨ location = work.place := by
  obtain ⟨base, name, isBase, plain, rfl⟩ := tree.child
  exact (Path.mem_way_child plain.plain member).imp_left fun before => .inr ⟨base, isBase, before⟩

theorem HasTree.not_below (tree : stage.HasTree site work) (sound : stage.Sound site)
    (member : location ∈ work.way) : ¬ StrictlyBelow work.place location := by
  rintro ⟨inside, apart⟩
  rcases tree.way member with onWay | rfl
  · exact sound.apart work tree.member location onWay inside
  · exact apart rfl

/-- What was found in the directory and was left alone is found again. -/
theorem HasTree.since (tree : stage.HasTree site work) (sound : stage.Sound site)
    {seen now : Machine}
    (since : Undisturbed (fun location => Covered stage.held location ∧ ¬ places location)
      site.OnWay seen now)
    (below : ∀ location, places location → StrictlyBelow work.place location)
    (absolute : path.isAbsolute = true) (found : seen.find path = .ok (location, entry))
    (passes : ∀ location ∈ passed [] (pieces path.text.toList),
      location ∈ work.way ∨ work.place <+: location ∧ ¬ places location)
    (inside : work.place <+: path.place) (apart : ¬ places path.place) :
    now.find path = .ok (path.place, entry) := by
  refine since.find absolute found (fun location member => ?_) ⟨tree.covers inside, apart⟩
  rcases passes location member with onWay | ⟨within, other⟩
  · have stays : ¬ places location := fun here => tree.not_below sound onWay (below location here)
    rcases tree.way onWay with shared | rfl
    · exact .inl shared
    · exact .inr ⟨tree.covers (List.prefix_refl _), stays⟩
  · exact .inr ⟨tree.covers within, other⟩

theorem HasTree.find (tree : stage.HasTree site work) (sound : stage.Sound site)
    {seen now : Machine} (since : Undisturbed (Covered stage.held) site.OnWay seen now)
    (absolute : path.isAbsolute = true) (found : seen.find path = .ok (location, entry))
    (passes : ∀ location ∈ passed [] (pieces path.text.toList),
      location ∈ work.way ∨ work.place <+: location)
    (inside : work.place <+: path.place) : now.find path = .ok (path.place, entry) := by
  have unchanged := since.narrow fun location
    (own : Covered stage.held location ∧ ¬ False) => own.1
  exact tree.since sound unchanged (fun _ => False.elim) absolute found
    (fun location member => (passes location member).imp_right fun within => ⟨within, id⟩)
    inside id

theorem HasTree.moves (tree : first.HasTree site work) (sound : first.Sound site)
    (moves : first.Moves site places held last) (member : .tree work ∈ held)
    (below : ∀ location, places location → StrictlyBelow work.place location) :
    last.HasTree site work where
  member := moves.has ▸ member
  child := tree.child
  absolute := tree.absolute
  found := tree.since sound moves.leads below tree.absolute tree.found
    (fun _ member => .inl (List.mem_append_left _ member)) (List.prefix_refl _)
    fun here => (below _ here).2 rfl

/-- A build works in its directory and has nothing else. -/
structure Works (site : Site) (builder : Builder) (work : Path) (stage : Stage) : Prop where
  now : stage.Sound site
  has : stage.held = [.tree work]
  tree : stage.HasTree site work
  becomes : builder.scratch.root.Becomes stage.machine.working site.scratch

theorem Works.moves (works : first.Works site builder work)
    (moves : first.Moves site places first.held last)
    (below : ∀ location, places location → StrictlyBelow work.place location) :
    last.Works site builder work where
  now := moves.now
  has := moves.has.trans works.has
  tree := works.tree.moves works.now moves works.tree.member below
  becomes := works.becomes.of_stays moves.leads.stays

theorem Works.passes (works : first.Works site builder work) (passes : first.Passes site last) :
    last.Works site builder work :=
  works.moves passes fun _ => False.elim

def HasEntry (stage : Stage) (work : Path) (name : OsText) (contents : ByteArray) : Prop :=
  ∃ executable, stage.machine.find (work.child name) =
    .ok ((work.child name).place, .file contents executable)

theorem HasTree.entry_since (tree : stage.HasTree site work) (sound : stage.Sound site)
    (plain : Path.IsPlainName name) {now : Machine}
    (since : Undisturbed (fun location => Covered stage.held location ∧ ¬ places location)
      site.OnWay stage.machine now)
    (below : ∀ location, places location → StrictlyBelow work.place location)
    (apart : ¬ places (work.child name).place) (has : stage.HasEntry work name contents) :
    ∃ executable, now.find (work.child name) =
      .ok ((work.child name).place, .file contents executable) := by
  obtain ⟨executable, found⟩ := has
  refine ⟨executable, tree.since sound since below
    ((Path.isAbsolute_child work plain.plain).trans tree.absolute) found
    (fun location member => .inl ((Path.mem_passed_child_iff work plain.plain).mp member)) ?_
    apart⟩
  rw [Path.place_child work plain]
  exact List.prefix_append _ _

theorem HasTree.entry_leads (tree : stage.HasTree site work) (sound : stage.Sound site)
    (plain : Path.IsPlainName name) (leads : stage.Leads site now)
    (has : stage.HasEntry work name contents) :
    ∃ executable, now.find (work.child name) =
      .ok ((work.child name).place, .file contents executable) := by
  have unchanged := leads.narrow fun location
    (own : Covered stage.held location ∧ ¬ False) => own.1
  exact tree.entry_since sound plain unchanged (fun _ => False.elim) id has

theorem HasTree.entry_passes (tree : first.HasTree site work) (sound : first.Sound site)
    (plain : Path.IsPlainName name) (passes : first.Passes site last)
    (has : first.HasEntry work name contents) : last.HasEntry work name contents :=
  tree.entry_leads sound plain passes.leads has

/-- A tool has worked in a directory, and since then the others have left the directory alone. -/
structure Built (site : Site) (stage : Stage) (work : Path) (invocation : Invocation)
    (before left : Machine) : Prop where
  called : ∃ answered, World.CallIn stage.trace invocation answered before left
  way : ∀ location ∈ work.way, left.disk.get? location = some .directory
  tree : left.disk.IsTree
  since : Undisturbed (Covered stage.held) site.OnWay left stage.machine

theorem Built.passes (built : first.Built site work invocation before left)
    (passes : first.Passes site last) : last.Built site work invocation before left where
  called := built.called.imp fun _ call => call.mono passes.trace
  way := built.way
  tree := built.tree
  since := by
    rw [passes.has]
    exact built.since.trans passes.leads

theorem way_toldIn (work : Path) (member : location ∈ passed [] (pieces (Builder.toldIn
    (.unique work)).text.toList)) : location ∈ work.way ∨
      location = (work.child "target").place ∨
      location = ((work.child "target").child "release").place := by
  have onWay := (Path.mem_passed_child_iff _ isPlainName_archive.plain).mp member
  rcases Path.mem_way_child isPlainName_release.plain onWay with before | last
  · exact (Path.mem_way_child isPlainName_target.plain before).imp_right .inl
  · exact .inr (.inr last)

theorem absolute_toldIn (absolute : work.isAbsolute = true) :
    (Builder.toldIn (.unique work)).isAbsolute = true := by
  rw [Builder.toldIn, Builder.builtArchive, Path.isAbsolute_child _ isPlainName_archive.plain,
    Path.isAbsolute_child _ isPlainName_release.plain, WorkDirectory.path,
    Path.isAbsolute_child _ isPlainName_target.plain, absolute]

theorem place_toldIn (work : Path) : (Builder.toldIn (.unique work)).place =
    work.place ++ [("target" : OsText)] ++ [("release" : OsText)] ++
      [(archiveName Manifest.libraryName : OsText)] := by
  rw [Builder.toldIn, Builder.builtArchive, Path.place_child _ isPlainName_archive,
    Path.place_child _ isPlainName_release, WorkDirectory.path,
    Path.place_child _ isPlainName_target]

theorem below_toldIn (work : Path) :
    StrictlyBelow work.place (Builder.toldIn (.unique work)).place := by
  rw [place_toldIn, List.append_assoc, List.append_assoc]
  exact strictlyBelow_of_child ⟨_, List.append_assoc ..⟩

/-- The way to where a package tool leaves its archive is the way to the directory, and goes on
inside. -/
theorem way_or_inside (work : Path) (member : location ∈ passed [] (pieces (Builder.toldIn
    (.unique work)).text.toList)) : location ∈ work.way ∨ work.place <+: location := by
  refine (way_toldIn work member).imp_right ?_
  rintro (rfl | rfl)
  · rw [Path.place_child work isPlainName_target]
    exact List.prefix_append _ _
  · rw [Path.place_child _ isPlainName_release, Path.place_child work isPlainName_target,
      List.append_assoc]
    exact List.prefix_append _ _

/-- The archive that is found in the directory is the one that the tool has left there. -/
theorem Built.found (built : stage.Built site work invocation before left)
    (tree : stage.HasTree site work)
    (found : stage.machine.find (Builder.toldIn (.unique work)) =
      .ok (location, .file contents executable)) :
    left.find (Builder.toldIn (.unique work)) =
      .ok ((Builder.toldIn (.unique work)).place, .file contents executable) := by
  have absolute := absolute_toldIn tree.absolute
  obtain ⟨here, stands, -⟩ := Machine.folders_of_find absolute found
  rw [here] at found stands
  have stood := built.since.stood (tree.covers (below_toldIn work).1) stands nofun
  refine Machine.find_again absolute found (fun location member => ?_) stood
  have release := built.tree _ _ stood
  rw [place_toldIn, List.dropLast_concat] at release
  have target := built.tree _ _ release
  rw [List.dropLast_concat] at target
  rcases way_toldIn work member with before | rfl | rfl
  · exact built.way location before
  · rw [Path.place_child work isPlainName_target, target]
  · rw [Path.place_child _ isPlainName_release, Path.place_child work isPlainName_target, release]

end Stage

theorem Builder.output_below (builder : Builder) (job : Job)
    (absolute : (work : Path).isAbsolute = true)
    (output : (builder.callIn job (.unique work)).Output working location) :
    (work.child "target").place <+: location ∧ StrictlyBelow work.place location := by
  rw [builder.output_callIn, WorkDirectory.path, Path.contains_place
    ((Path.isAbsolute_child work isPlainName_target.plain).trans absolute)] at output
  refine ⟨output, ?_⟩
  rw [Path.place_child work isPlainName_target] at output
  exact strictlyBelow_of_child output

namespace Stage

variable {site : Site} {first last : Stage} {work : Path}

/-- A scratch file of one's own holds what was brought there, if that was a success. -/
structure Brings (site : Site) (target : Path) (contents : ByteArray) (first : Stage)
    (result : Except Failure Unit) (last : Stage) : Prop where
  now : last.Sound site
  has : last.held = first.held
  trace : first.trace ⊆ last.trace
  file : result = .ok () → last.HasFile site target contents

/-- A build in a directory ends with an archive that it hands on, outside of the directory, or
with the directory alone. -/
def HandsOut (site : Site) (job : Job) (work : Path) (result : Except Failure Path)
    (stage : Stage) : Prop :=
  stage.Sound site ∧ (∀ failure, result = .error failure → stage.held = [.tree work]) ∧
    ∀ archive, result = .ok archive → stage.held = [.file archive, .tree work] ∧
      ¬ work.place <+: archive.place ∧ ∃ invocation before left contents,
        stage.Delivers site job archive invocation before left contents

/-- The package tool leaves the way to the directory of its build as it is. -/
theorem Called.built {builder : Builder}
    (called : first.Called site last (builder.callIn job (.unique work)) before left)
    (tree : first.HasTree site work) (sound : first.Sound site) :
    last.Built site work (builder.callIn job (.unique work)) before left where
  called := called.called
  way := by
    intro location member
    have found := tree.find sound called.found tree.absolute tree.found
      (fun _ member => .inl (List.mem_append_left _ member)) (List.prefix_refl _)
    obtain ⟨-, stands, folders⟩ := Machine.folders_of_find tree.absolute found
    have folder : before.disk.get? location = some .directory := by
      rcases List.mem_append.mp member with passes | last
      · exact folders location passes
      · rw [List.mem_singleton.mp last, stands]
    refine called.keeps.others.keeps (fun output => ?_) folder
    exact tree.not_below sound member (builder.output_below job tree.absolute output).2
  tree := called.tree
  since := called.moves.has ▸ called.since

end Stage

namespace Secures

variable {mishap : Mishap} {site : Site} {stage : Stage}

/-- The package tool is called on the build's own source and manifest. -/
theorem callPackageTool (clean : mishap.IsClean) (builder : Builder) (job : Job)
    (described : job.manifest = some manifest) (told : folder.IsText → work.IsText)
    (works : stage.Works site builder work)
    (source : stage.HasEntry work Manifest.sourceFileName job.source.toUTF8)
    (entry : stage.HasEntry work Manifest.fileName manifest.toUTF8) :
    Secures mishap site (ReadsIfTold folder job)
      (fun _ later => later.Works site builder work ∧ ∃ before left,
        later.Built site work (builder.callIn job (.unique work)) before left)
      (builder.callTool (builder.callIn job (.unique work)) "build").run stage := by
  have tree := works.tree
  have finds (machine : Machine) (leads : stage.Leads site machine) :
      ReadsIfTold folder job (builder.callIn job (.unique work)) machine := by
    intro known
    obtain ⟨_, foundSource⟩ := tree.entry_leads works.now isPlainName_source leads source
    obtain ⟨_, foundManifest⟩ := tree.entry_leads works.now isPlainName_manifest leads entry
    obtain ⟨reads, readsToo⟩ := builder.reads_callIn job (.unique work)
      (told (known (described ▸ Option.some_ne_none _))) tree.absolute
      ⟨_, _, Machine.reach_of_find foundSource⟩ ⟨_, _, Machine.reach_of_find foundManifest⟩
    exact ⟨reads, readsToo.trans described.symm⟩
  refine (callTool clean works.now builder _ _ (fun working location output => ?_) finds
    ?_).mono fun _ later reached => ?_
  · exact tree.covers (builder.output_below job tree.absolute output).2.1
  · intro before left leads keeps holding member output
    rw [works.has, List.mem_singleton] at member
    rw [member] at output
    have below : StrictlyBelow work.place work.place :=
      (builder.output_below job tree.absolute output).2
    exact absurd rfl below.2
  · obtain ⟨before, left, call⟩ := reached
    exact ⟨works.moves call.moves fun location output =>
      (builder.output_below job tree.absolute output).2, before, left, call.built tree works.now⟩

theorem writeInside (clean : mishap.IsClean) {reads : Invocation → Machine → Prop}
    (works : stage.Works site builder work) (plain : Path.IsPlainName name)
    (noSink : stage.machine.disk.get? (work.child name).place ≠ some .sink) :
    Secures mishap site reads
      (fun result later => later.Works site builder work ∧ (result = .ok () →
        stage.Moves site (· = (work.child name).place) stage.held later ∧
          later.HasEntry work name text.toUTF8))
      (Builder.writeFile (work.child name) text).run stage := by
  have absolute := (Path.isAbsolute_child work plain.plain).trans works.tree.absolute
  have below : StrictlyBelow work.place (work.child name).place := by
    rw [Path.place_child work plain]
    exact strictlyBelow_of_child (List.prefix_refl _)
  refine (write clean works.now absolute (works.tree.covers below.1) noSink).mono
    fun result later reached => ?_
  rcases reached with ⟨failure, rfl, passes⟩ | ⟨rfl, moves, found⟩
  · exact ⟨works.passes passes, nofun⟩
  · exact ⟨works.moves moves fun _ here => here ▸ below, fun _ => ⟨moves, found⟩⟩

/-- All that is done in the working directory up to the call of the package tool. -/
theorem compileIn (clean : mishap.IsClean) (builder : Builder) (job : Job)
    (described : job.manifest = some manifest) (told : folder.IsText → work.IsText)
    (works : stage.Works site builder work)
    (empty : ∀ location, StrictlyBelow work.place location →
      stage.machine.disk.get? location = none) :
    Secures mishap site (ReadsIfTold folder job)
      (fun result later => later.Works site builder work ∧ (result = .ok () → ∃ before left,
        later.Built site work (builder.callIn job (.unique work)) before left))
      (builder.compileIn job manifest (.unique work)).run stage := by
  have below (name : OsText) (plain : Path.IsPlainName name) :
      StrictlyBelow work.place (work.child name).place := by
    rw [Path.place_child work plain]
    exact strictlyBelow_of_child (List.prefix_refl _)
  have free (name : OsText) (plain : Path.IsPlainName name) :
      stage.machine.disk.get? (work.child name).place ≠ some .sink := by
    rw [empty _ (below name plain)]
    exact nofun
  have apart : (work.child Manifest.fileName).place ≠
      (work.child Manifest.sourceFileName).place := by
    rw [Path.place_child work isPlainName_source, Path.place_child work isPlainName_manifest]
    intro same
    exact absurd (List.singleton_inj.mp (List.append_cancel_left same)) (by decide)
  refine (writeInside clean works isPlainName_source (free _ isPlainName_source)).thenTask
    (fun _ first ⟨worksNow, wrote⟩ => ?_) fun failure later reached => ⟨reached.1, nofun⟩
  obtain ⟨moves, source⟩ := wrote rfl
  have noSink : first.machine.disk.get? (work.child Manifest.fileName).place ≠ some .sink :=
    fun sink => free _ isPlainName_manifest
      (moves.leads.stood ⟨works.tree.covers (below _ isPlainName_manifest).1, apart⟩ sink nofun)
  refine (writeInside clean worksNow isPlainName_manifest noSink).thenTask
    (fun _ second ⟨worksThen, wroteToo⟩ => ?_) fun failure later reached => ⟨reached.1, nofun⟩
  obtain ⟨movesToo, entry⟩ := wroteToo rfl
  have sourceToo : second.HasEntry work Manifest.sourceFileName job.source.toUTF8 :=
    worksNow.tree.entry_since worksNow.now isPlainName_source movesToo.leads
      (fun _ here => here ▸ below _ isPlainName_manifest) apart.symm source
  refine (report clean worksThen.now _ _).lift fun _ third reported => ?_
  refine (report clean reported.now _ _).lift fun _ fourth reportedToo => ?_
  have passes := reported.trans reportedToo
  have tree := worksThen.tree
  refine (callPackageTool clean builder job described told (worksThen.passes passes)
    (tree.entry_passes worksThen.now isPlainName_source passes sourceToo)
    (tree.entry_passes worksThen.now isPlainName_manifest passes entry)).mono
    fun result last reached => ⟨reached.1, fun _ => reached.2⟩

theorem copyOut (clean : mishap.IsClean) {reads : Invocation → Machine → Prop}
    (sound : stage.Sound site) (file : stage.HasFile site target old)
    (finds : ∀ machine, stage.Leads site machine →
      machine.find source = .ok (source.place, .file contents executable)) :
    Secures mishap site reads (Stage.Brings site target contents stage)
      (Task.orInaccessible path (Program.request (.copy source target))).run stage := by
  have noSink : stage.machine.disk.get? target.place ≠ some .sink := by
    obtain ⟨mode, reserved⟩ := file.found
    rw [((Machine.find_eq_ok_iff ..).mp reserved).2]
    exact nofun
  have asked : Secures mishap site reads
      (fun (answer : Except SystemError Unit) later =>
        (∃ cause, answer = .error cause ∧ stage.Passes site later) ∨
        answer = .ok () ∧ stage.Moves site (· = target.place) stage.held later ∧
          later.machine.find target = .ok (target.place, .file contents executable))
      (Program.request (.copy source target)) stage :=
    request fun world answer after turn => turn.copy reads clean sound file.absolute
      ⟨_, file.member, rfl⟩ noSink (finds _ turn.leads)
  refine asked.orInaccessible (fun _ later reached => ?_) fun _ later reached => ?_
  · rcases reached with ⟨_, ⟨⟩, -⟩ | ⟨-, moves, found⟩
    exact ⟨moves.now, moves.has, moves.trace, fun _ =>
      ⟨moves.has ▸ file.member, file.child, file.absolute, _, found⟩⟩
  · rcases reached with ⟨_, ⟨⟩, passes⟩ | ⟨⟨⟩, -⟩
    exact ⟨passes.now, passes.has, passes.trace, nofun⟩

theorem removeInside (clean : mishap.IsClean) {reads : Invocation → Machine → Prop}
    (sound : stage.Sound site) (absolute : source.isAbsolute = true)
    (own : Covered stage.held source.place)
    (alone : ∀ holding ∈ stage.held, holding.place ≠ source.place) :
    Secures mishap site reads (fun _ => stage.Moves site (· = source.place) stage.held)
      (Task.orInaccessible path (Program.request (.removeFile source))).run stage := by
  have same : stage.held.filter (· ≠ .file source) = stage.held :=
    List.filter_eq_self.mpr fun holding member =>
      decide_eq_true fun equal => alone holding member (by rw [equal]; rfl)
  have removed : Secures mishap site reads
      (fun (_ : Except SystemError Unit) => stage.Moves site (· = source.place) stage.held)
      (Program.request (.removeFile source)) stage := by
    refine request fun world answer after turn => ?_
    have settled := turn.removes reads (.file source) clean sound
      (fun location names => (Path.names_place absolute _).mp names)
      (fun location here => show Covered stage.held location from here ▸ own) rfl
      (fun holding member here => absurd here (alone holding member)) nofun
    rw [same] at settled
    exact settled
  exact removed.orInaccessible (fun _ _ => id) fun _ _ => id

/-- What a program moves from its directory to a scratch file is there whole, or the move has
failed. -/
theorem move (clean : mishap.IsClean) {reads : Invocation → Machine → Prop}
    (sound : stage.Sound site) (tree : stage.HasTree site work)
    (file : stage.HasFile site target old)
    (absolute : source.isAbsolute = true) (below : StrictlyBelow work.place source.place)
    (alone : ∀ holding ∈ stage.held, holding.place ≠ source.place)
    (passes : ∀ location ∈ passed [] (pieces source.text.toList),
      location ∈ work.way ∨ work.place <+: location)
    (found : stage.machine.find source = .ok (source.place, .file contents executable)) :
    Secures mishap site reads (Stage.Brings site target contents stage)
      (Scratch.move source target).run stage := by
  have own := tree.covers below.1
  have finds (machine : Machine) (leads : stage.Leads site machine) :
      machine.find source = .ok (source.place, .file contents executable) :=
    tree.find sound leads absolute found passes below.1
  have renamed : Secures mishap site reads
      (fun (answer : Except SystemError Unit) later =>
        (∃ cause, answer = .error cause ∧ stage.Passes site later) ∨
        answer = .ok () ∧
          stage.Moves site (fun other => other = source.place ∨ other = target.place) stage.held
            later ∧
          later.machine.find target = .ok (target.place, .file contents executable))
      (Program.request (.rename source target)) stage :=
    request fun world answer after turn => turn.rename reads clean sound file.absolute own
      ⟨_, file.member, rfl⟩ alone (finds _ turn.leads)
  rw [Scratch.move]
  refine renamed.lift fun answer tried reached => ?_
  rcases reached with ⟨cause, rfl, passed⟩ | ⟨rfl, moves, foundThere⟩
  · have findsStill (machine : Machine) (leads : tried.Leads site machine) :=
      finds machine (passed.leads.trans (leads.narrow fun _ => passed.has ▸ id))
    refine (copyOut clean passed.now (file.passes passed) findsStill).thenTask
      (fun _ copied brings => ?_) fun failure later brings =>
        ⟨brings.now, brings.has.trans passed.has, fun _ here => brings.trace (passed.trace here),
          by rintro ⟨⟩⟩
    have has : copied.held = stage.held := brings.has.trans passed.has
    refine (removeInside clean brings.now absolute (has ▸ own) (has ▸ alone)).mono
      fun _ last moves => ⟨moves.now, moves.has.trans has,
        fun _ here => moves.trace (brings.trace (passed.trace here)), fun _ => ?_⟩
    exact (brings.file rfl).moves moves (has ▸ file.member) (alone _ file.member)
  · exact pure ⟨moves.now, moves.has, moves.trace, fun _ =>
      ⟨moves.has ▸ file.member, file.child, file.absolute, _, foundThere⟩⟩

theorem isFile (clean : mishap.IsClean) {reads : Invocation → Machine → Prop}
    (sound : stage.Sound site) (absolute : path.isAbsolute = true) :
    Secures mishap site reads
      (fun (answer : Bool) later => stage.Passes site later ∧ (answer = true →
        ∃ contents executable, later.machine.find path =
          .ok (path.place, .file contents executable)))
      (Program.request (.isFile path)) stage := by
  refine request fun world answer after turn => ?_
  obtain ⟨behaves, passes⟩ := turn.quiet reads clean sound trivial
  refine ⟨behaves, passes, fun isFile => ?_⟩
  rcases turn.gives.cases clean with ⟨answered, rfl⟩ | ⟨⟨_, ⟨⟩⟩, -⟩
  obtain ⟨location, contents, executable, reached⟩ :=
    (Machine.isFile_iff after.machine path).mp (answered.symm.trans isFile)
  have found := (turn.fair.straight path (List.mem_singleton_self _)).find reached
  refine ⟨contents, executable, ?_⟩
  rw [← (Machine.folders_of_find absolute found).1]
  exact found

/-- What a program moves from its directory to a scratch file beside it is there whole, or the
directory is all that the program still has. -/
theorem moveOrDiscard (clean : mishap.IsClean) {reads : Invocation → Machine → Prop}
    (sound : stage.Sound site) (tree : stage.HasTree site work)
    (file : stage.HasFile site target old) (has : stage.held = [.file target, .tree work])
    (outside : ¬ work.place <+: target.place)
    (absolute : source.isAbsolute = true) (below : StrictlyBelow work.place source.place)
    (passes : ∀ location ∈ passed [] (pieces source.text.toList),
      location ∈ work.way ∨ work.place <+: location)
    (found : stage.machine.find source = .ok (source.place, .file contents executable)) :
    Secures mishap site reads
      (fun result later => later.Sound site ∧
        (∀ failure, result = .error failure → later.held = [.tree work]) ∧
        (result = .ok () → later.held = [.file target, .tree work] ∧
          stage.trace ⊆ later.trace ∧ later.HasFile site target contents))
      ((Scratch.move source target).onFailure [.discardFile target]).run stage := by
  have alone : ∀ holding ∈ stage.held, holding.place ≠ source.place := by
    rw [has]
    intro holding member same
    rcases List.mem_cons.mp member with rfl | own
    · refine outside ?_
      rw [show target.place = _ from same]
      exact below.1
    · rw [List.mem_singleton.mp own] at same
      exact below.2 same
  have only : ∀ holding ∈ stage.held, holding.place = target.place → holding = .file target := by
    rw [has]
    intro holding member same
    rcases List.mem_cons.mp member with rfl | own
    · rfl
    · rw [List.mem_singleton.mp own] at same
      exact absurd (same ▸ List.prefix_refl _) outside
  refine (move clean sound tree file absolute below alone passes found).onFailure
    (fun _ later brings => ?_) fun failure later brings => ?_
  · exact ⟨brings.now, nofun, fun _ => ⟨brings.has.trans has, brings.trace, brings.file rfl⟩⟩
  · have own : .file target ∈ later.held := brings.has ▸ file.member
    refine (discardFile clean brings.now file.absolute own (brings.has ▸ only)).mono
      fun _ last moves => ⟨moves.now, fun _ _ => ?_, nofun⟩
    rw [moves.has, brings.has, has]
    simp

/-- An archive that was found is moved to a scratch file, or only the directory is left. -/
theorem moveOut (clean : mishap.IsClean) {reads : Invocation → Machine → Prop}
    (works : stage.Works site builder work)
    (found : stage.machine.find (Builder.toldIn (.unique work)) =
      .ok ((Builder.toldIn (.unique work)).place, .file contents executable)) :
    Secures mishap site reads
      (fun result later => later.Sound site ∧
        (∀ failure, result = .error failure → later.held = [.tree work]) ∧
        ∀ archive, result = .ok archive → later.held = [.file archive, .tree work] ∧
          stage.trace ⊆ later.trace ∧ ¬ work.place <+: archive.place ∧
          later.HasFile site archive contents)
      (do
        let target ← builder.scratch.archivePath
        (Scratch.move (Builder.toldIn (.unique work)) target).onFailure [.discardFile target]
        return target : Task Path).run stage := by
  have absolute := Stage.absolute_toldIn works.tree.absolute
  have below := Stage.below_toldIn work
  have passes (location : Location)
      (member : location ∈ passed [] (pieces (Builder.toldIn (.unique work)).text.toList)) :=
    Stage.way_or_inside work member
  refine (newFile clean works.now builder.scratch works.becomes (by decide)).thenTask
    (fun target made reached => ?_) fun failure later reached => ?_
  · rcases reached with ⟨_, ⟨⟩, -⟩ | ⟨_, ⟨⟩, new⟩
    have heldNow : made.held = [.file target, .tree work] := by rw [new.moves.has, works.has]
    have outside : ¬ work.place <+: target.place := fun inside =>
      new.fresh (works.tree.covers inside)
    have leads := new.moves.leads.narrow fun location (own : Covered stage.held location) =>
      And.intro own id
    have foundNow := works.tree.find works.now leads absolute found passes below.1
    have treeNow := works.tree.moves works.now new.moves
      (List.mem_cons_of_mem _ works.tree.member) fun _ => False.elim
    refine (moveOrDiscard clean new.moves.now treeNow new.hasFile heldNow outside absolute below
      passes foundNow).thenTask (fun _ last reached => ?_) fun failure last reached => ?_
    · obtain ⟨now, -, ok⟩ := reached
      obtain ⟨has, trace, file⟩ := ok rfl
      refine ⟨now, nofun, ?_⟩
      rintro _ ⟨⟩
      exact ⟨has, fun _ here => trace (new.moves.trace here), outside, file⟩
    · exact ⟨reached.1, fun _ _ => reached.2.1 failure rfl, nofun⟩
  · rcases reached with ⟨_, ⟨⟩, passes⟩ | ⟨_, ⟨⟩, -⟩
    exact ⟨passes.now, fun _ _ => passes.has.trans works.has, nofun⟩

/-- The archive that a package tool has left is moved away, or it stays where it is. -/
theorem relocate (clean : mishap.IsClean) {reads : Invocation → Machine → Prop}
    (works : stage.Works site builder work)
    (built : stage.Built site work (builder.callIn job (.unique work)) before left)
    (described : job.manifest = some manifest) :
    Secures mishap site reads (Stage.HandsOut site job work)
      (builder.scratch.relocate (Builder.toldIn (.unique work))).run stage := by
  rw [Scratch.relocate]
  refine (isFile clean works.now (Stage.absolute_toldIn works.tree.absolute)).lift
    fun answer looked reached => ?_
  obtain ⟨passes, there⟩ := reached
  have worksNow := works.passes passes
  cases answer with
  | false => exact ⟨worksNow.now, fun _ _ => worksNow.has, by rintro _ ⟨⟩⟩
  | true =>
    obtain ⟨contents, executable, found⟩ := there rfl
    have archiveTold : ScriptedTool.archivePath (builder.callIn job (.unique work)) =
        Builder.toldIn (.unique work) := Builder.archivePath_packageCall ..
    have made := (built.passes passes).found worksNow.tree found
    rw [← archiveTold] at made
    refine (moveOut clean worksNow found).mono fun result last reached =>
      ⟨reached.1, reached.2.1, fun archive same => ?_⟩
    obtain ⟨has, trace, outside, file⟩ := reached.2.2 archive same
    refine ⟨has, outside, _, before, left, contents, ?_, ⟨_, _, made⟩, ?_, file⟩
    · exact built.called.imp fun _ call => call.mono fun _ here => trace (passes.trace here)
    · rw [described]
      rintro ⟨⟩

theorem buildIn (clean : mishap.IsClean) (builder : Builder) (job : Job)
    (described : job.manifest = some manifest) (told : folder.IsText → work.IsText)
    (works : stage.Works site builder work)
    (empty : ∀ location, StrictlyBelow work.place location →
      stage.machine.disk.get? location = none) :
    Secures mishap site (ReadsIfTold folder job) (Stage.HandsOut site job work)
      (builder.buildIn job manifest (.unique work)).run stage := by
  rw [Builder.buildIn_eq]
  refine (compileIn clean builder job described told works empty).thenTask
    (fun _ compiled ⟨worksNow, made⟩ => ?_)
    fun failure later reached => ⟨reached.1.now, fun _ _ => reached.1.has, nofun⟩
  obtain ⟨before, left, built⟩ := made rfl
  refine (relocate clean worksNow built described).thenTask (fun archive moved handed => ?_)
    fun failure later reached => ⟨reached.1, fun _ _ => reached.2.1 failure rfl, nofun⟩
  refine (report clean handed.1 _ _).lift fun _ told passes => ?_
  refine pure ⟨passes.now, nofun, ?_⟩
  rintro _ ⟨⟩
  obtain ⟨has, outside, invocation, before, left, contents, delivers⟩ := handed.2.2 archive rfl
  exact ⟨passes.has.trans has, outside, invocation, before, left, contents,
    delivers.moves passes delivers.has.member id⟩

theorem removeUnique (clean : mishap.IsClean) {reads : Invocation → Machine → Prop}
    (sound : stage.Sound site) (absolute : work.isAbsolute = true) (own : .tree work ∈ stage.held)
    (alone : ∀ holding ∈ stage.held, work.place <+: holding.place → holding = .tree work) :
    Secures mishap site reads
      (fun _ => stage.Moves site (work.place <+: ·) (stage.held.filter (· ≠ .tree work)))
      (WorkDirectory.unique work).remove.run stage := by
  have gone : Secures mishap site reads
      (fun (_ : Except SystemError Unit) =>
        stage.Moves site (work.place <+: ·) (stage.held.filter (· ≠ .tree work)))
      (Program.request (.removeTree work)) stage :=
    request fun world answer after turn => turn.removes reads (.tree work) clean sound
      (fun location contains => (Path.contains_place absolute _).mp contains)
      (fun location here => ⟨_, own, here⟩) rfl alone nofun
  rw [WorkDirectory.remove, ExceptT.run_mk]
  refine gone.bind fun answer later moves => ?_
  cases answer with
  | error cause => exact pure moves
  | ok done => exact pure moves

theorem buildPackage (clean : mishap.IsClean) (sound : stage.Sound site) (builder : Builder)
    (job : Job) (described : job.manifest = some manifest)
    (becomes : builder.scratch.root.Becomes stage.machine.working site.scratch)
    (parent : job.workRoot.Becomes stage.machine.working root)
    (isBase : site.bases (root.within builder.settings.toolchain.workName))
    (unique : builder.settings.toolchain.workMode = .unique) (held : stage.held = []) :
    Secures mishap site (ReadsIfTold (root.child builder.settings.toolchain.workName) job)
      (Stage.Delivered site job) (builder.buildPackage job manifest).run stage := by
  rw [Builder.buildPackage_eq, unique]
  refine (makeUnique clean sound parent isBase).thenTask (fun directory made reached => ?_)
    fun _ _ _ => nofun
  obtain ⟨work, rfl, new, text⟩ := reached directory rfl
  have works : made.Works site builder work :=
    ⟨new.moves.now, by rw [new.moves.has, held], new.hasTree,
      becomes.of_stays new.moves.leads.stays⟩
  have kept : Secures mishap site (ReadsIfTold (root.child builder.settings.toolchain.workName) job)
      (fun result later => ∀ archive, result = .ok archive → later.Sound site ∧
        later.held = [.file archive, .tree work] ∧ ¬ work.place <+: archive.place ∧
        ∃ invocation before left contents,
          later.Delivers site job archive invocation before left contents)
      ((builder.buildIn job manifest (.unique work)).onFailure
        (WorkDirectory.unique work).givenUp).run made := by
    refine (buildIn clean builder job described text works new.empty).onFailure
      (fun archive later reached => ?_) fun failure later reached => ?_
    · rintro _ ⟨⟩
      exact ⟨reached.1, reached.2.2 archive rfl⟩
    · have left := reached.2.1 failure rfl
      exact (discardTree clean reached.1 new.absolute (by simp [left]) (by simp [left])).mono
        fun _ _ _ => nofun
  refine kept.thenTask (fun archive handed reached => ?_) fun _ _ _ => nofun
  obtain ⟨now, has, outside, invocation, before, left, contents, delivers⟩ := reached archive rfl
  refine (removeUnique clean now new.absolute (by simp [has]) ?_).thenTask
    (fun _ last moves => ?_) fun _ _ _ => nofun
  · rw [has]
    intro holding member inside
    rcases List.mem_cons.mp member with rfl | own
    · exact absurd inside outside
    · exact List.mem_singleton.mp own
  · rintro _ ⟨⟩
    refine ⟨invocation, before, left, contents, delivers.moves moves ?_ outside⟩
    exact List.mem_filter.mpr ⟨delivers.has.member, decide_eq_true nofun⟩

theorem build (clean : mishap.IsClean) (sound : stage.Sound site) (builder : Builder) (job : Job)
    (root : Path) (becomes : builder.scratch.root.Becomes stage.machine.working site.scratch)
    (package : job.manifest ≠ none → job.workRoot.Becomes stage.machine.working root ∧
      site.bases (root.within builder.settings.toolchain.workName) ∧
      builder.settings.toolchain.workMode = .unique)
    (held : stage.held = []) :
    Secures mishap site (ReadsIfTold (root.child builder.settings.toolchain.workName) job)
      (Stage.Delivered site job) (builder.build job).run stage := by
  rw [Builder.build]
  refine (report clean sound _ _).lift fun _ told passes => ?_
  have has : told.held = [] := passes.has.trans held
  have placed := becomes.of_stays passes.leads.stays
  cases described : job.manifest with
  | none =>
    exact (buildDirect clean passes.now builder job placed described has).reading
      fun _ _ reads _ => reads
  | some manifest =>
    obtain ⟨parent, isBase, unique⟩ := package (described ▸ Option.some_ne_none _)
    exact buildPackage clean passes.now builder job described placed
      (parent.of_stays passes.leads.stays) isBase unique has

end Secures

end FragmentBuild
