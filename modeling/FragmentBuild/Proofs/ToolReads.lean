import FragmentBuild.Proofs.CallWords
import FragmentBuild.Proofs.Finishing

/-! What a tool reads when it is called. The package tool is told where the manifest is and
looks for the source beside it, by a path that it writes anew; it finds the file that was
written. -/
namespace FragmentBuild

theorem Disk.origin_absolute_iff (working : Option Location) (absolute : path.isAbsolute = true) :
    Disk.origin working path = .ok start ↔
      0 ∉ path.text.toList ∧ path.text.toList.length ≤ 4095 ∧ start = [] := by
  have notEmpty : path.text.isEmpty = false := by
    cases empty : path.text.isEmpty with
    | false => rfl
    | true =>
      rw [OsText.isEmpty_iff] at empty
      simp [Path.isAbsolute, empty] at absolute
  by_cases nul : 0 ∈ path.text.toList
  · simp [Disk.origin, nul]
  · by_cases long : 4095 < path.text.toList.length
    · simp [Disk.origin, nul, notEmpty, long, Nat.not_le.mpr long]
    · simp [Disk.origin, nul, notEmpty, long, Nat.not_lt.mp long, absolute, eq_comm]

theorem Path.trunk_of_absolute (base : Path) (absolute : base.isAbsolute = true) :
    ∃ rest, base.trunk = [] :: rest := by
  have first : ∃ more, base.text.toList = slashByte :: more := by
    cases shape : base.text.toList with
    | nil => simp [isAbsolute, shape] at absolute
    | cons c more =>
      have slash : c = slashByte := by simpa [isAbsolute, shape] using absolute
      exact ⟨more, by rw [slash]⟩
  obtain ⟨more, shape⟩ := first
  have split : pieces base.text.toList = [] :: pieces more := by simp [shape, pieces]
  rw [trunk, split]
  split
  · exact ⟨_, List.dropLast_cons_of_ne_nil (pieces_ne_nil more)⟩
  · exact ⟨_, rfl⟩

/-- A name beside another one in a directory, whose path is written anew from its parts, leads
where the name does. -/
theorem Machine.locate_beside {machine : Machine} {base : Path} (absolute : base.isAbsolute = true)
    (name : Path.IsPlainName given) (other : Path.IsPlainName wanted)
    (leads : machine.locate (base.child wanted) = .ok location) :
    machine.locate (base.beside given wanted) = .ok location := by
  obtain ⟨start, begun, followed⟩ := (locate_eq_ok_iff ..).mp leads
  have whole := (base.isAbsolute_child other.plain).trans absolute
  obtain ⟨noNul, short, rfl⟩ := (Disk.origin_absolute_iff _ whole).mp begun
  obtain ⟨directories, names, goal⟩ := (Disk.walk_eq_ok_iff ..).mp followed
  obtain ⟨absoluteToo, shape⟩ :=
    base.pieces_beside absolute name.plain name.leads wanted other.plain
  have original := base.pieces_child other.plain
  obtain ⟨rest, trunk⟩ := base.trunk_of_absolute absolute
  have filtered : base.trunk.filter leadsOn ++ [wanted.toList] =
      (base.trunk ++ [wanted.toList]).filter leadsOn := by
    rw [List.filter_append, List.filter_cons_of_pos other.leads, List.filter_nil]
  have inside : List.Sublist (pieces (base.beside given wanted).text.toList)
      (pieces (base.child wanted).text.toList) := by
    have dropped : List.Sublist ([] :: rest.filter leadsOn) ([] :: rest) :=
      List.filter_sublist.cons_cons []
    rw [shape, original, trunk]
    exact dropped.append_right _
  rw [locate_eq_ok_iff]
  refine ⟨[], (Disk.origin_absolute_iff _ absoluteToo).mpr ⟨?_, ?_, rfl⟩,
    (Disk.walk_eq_ok_iff ..).mpr ⟨?_, ?_, ?_⟩⟩
  · intro nul
    rcases mem_pieces_of_mem _ nul with slash | ⟨piece, member, within⟩
    · cases slash
    · exact noNul (mem_of_mem_pieces _ (inside.subset member) within)
  · have spreads := spread_le_of_sublist inside
    rw [spread_pieces, spread_pieces] at spreads
    omega
  · intro directory member
    rw [shape, List.cons_append, filtered, ← original] at member
    rcases List.mem_cons.mp member with rfl | later
    · exact Disk.get?_root _
    · exact directories directory (mem_passed_of_mem_filter [] _ later)
  · exact fun piece member => names piece (inside.subset member)
  · rw [shape, List.cons_append, filtered, ← original, ← goal]
    exact destination_filter [] _

theorem Machine.reach_beside {machine : Machine} {base : Path} (absolute : base.isAbsolute = true)
    (name : Path.IsPlainName given) (other : Path.IsPlainName wanted)
    (reached : machine.reach (base.child wanted) = .ok (location, entry)) :
    machine.reach (base.beside given wanted) = .ok (location, entry) := by
  obtain ⟨aimed, stands⟩ := (reach_eq_ok_iff ..).mp reached
  obtain ⟨here, leads, followed⟩ := (Disk.aim_eq_ok_iff ..).mp aimed
  exact (reach_eq_ok_iff ..).mpr ⟨(Disk.aim_eq_ok_iff ..).mpr
    ⟨here, locate_beside absolute name other leads, followed⟩, stands⟩

theorem sourceText_eq_join (fragments : List String) :
    sourceText fragments = String.join (fragments.map (· ++ "\n")) := by
  rw [← String.toList_inj, String.toList_join]
  simp [sourceText, sourceLines, List.flatMap_map]

/-- A call by which exactly these fragments are compiled, each on lines of its own, with exactly
these dependencies: the compiler is called without a manifest if there are none, and else the
package tool with a manifest of them. -/
structure ReadsUnit (toolchain : Toolchain) (fragments : List String)
    (dependencies : List Dependency) (invocation : Invocation) (machine : Machine) : Prop where
  source : invocation.sourceText? machine = some (String.join (fragments.map (· ++ "\n")))
  direct : dependencies = [] → invocation.program = toolchain.compiler ∧
    invocation.isPackageCall = false ∧ invocation.manifestPath? = none
  package : dependencies ≠ [] → invocation.program = toolchain.packageTool ∧
    invocation.isPackageCall = true ∧ invocation.manifestText? machine =
      some (Manifest.ofDependencies dependencies toolchain.edition).render

theorem DirectFiles.reads_unit {machine : Machine} (toolchain : Toolchain) (state : UnitState)
    (files : DirectFiles machine (Job.ofState state toolchain workRoot) source archive)
    (none : state.dependencies = []) :
    ReadsUnit toolchain state.fragments state.dependencies
      (Builder.compilerCall toolchain extraArguments source archive) machine where
  source := by
    rw [Invocation.sourceText?,
      Builder.sourcePath?_compilerCall toolchain extraArguments source archive
        files.archiveAbsolute, ← sourceText_eq_join]
    exact files.reads
  direct := fun _ => ⟨rfl, rfl, rfl⟩
  package := fun some => absurd none some

/-- A package tool that is told of its directory in text finds the manifest there, and the source
beside it. -/
theorem Builder.reads_callIn {machine : Machine} {text manifest : String} (builder : Builder)
    (job : Job) (work : WorkDirectory) (isText : work.path.IsText)
    (absolute : work.path.isAbsolute = true)
    (source : ∃ location executable, machine.reach (work.path.child Manifest.sourceFileName) =
      .ok (location, .file text.toUTF8 executable))
    (described : ∃ location executable, machine.reach (work.path.child Manifest.fileName) =
      .ok (location, .file manifest.toUTF8 executable)) :
    (builder.callIn job work).sourceText? machine = some text ∧
      (builder.callIn job work).manifestText? machine = some manifest := by
  obtain ⟨place, mode, source⟩ := source
  obtain ⟨goal, modeToo, described⟩ := described
  have shown := Path.ofText_display (isText.child (OsText.isText_ofText Manifest.fileName))
  have manifestPath : (builder.callIn job work).manifestPath? =
      some (work.path.child Manifest.fileName) :=
    (manifestPath?_packageCall ..).trans (congrArg some shown)
  have sourcePath : (builder.callIn job work).sourcePath? =
      some (work.path.beside Manifest.fileName Manifest.sourceFileName) := by
    rw [Invocation.sourcePath?, manifestPath]
    rfl
  constructor
  · have beside := Machine.reach_beside absolute isPlainName_manifest isPlainName_source source
    rw [Invocation.sourceText?, sourcePath, Option.bind_some]
    exact Machine.textAt?_of_reach beside
  · rw [Invocation.manifestText?, manifestPath, Option.bind_some]
    exact Machine.textAt?_of_reach described

theorem PackageFiles.reads_unit {before machine : Machine} {manifest : String}
    (builder : Builder) (toolchain : Toolchain) (state : UnitState)
    (same : builder.settings.toolchain = toolchain)
    (files : PackageFiles before machine toolchain (Job.ofState state toolchain workRoot) manifest
      work)
    (absolute : workRoot.isAbsolute = true) (shows : before.ShowsFiles toolchain workRoot)
    (written : manifest = (Manifest.ofDependencies state.dependencies toolchain.edition).render)
    (some : state.dependencies ≠ []) :
    ReadsUnit toolchain state.fragments state.dependencies
      (builder.callIn (Job.ofState state toolchain workRoot) work) machine := by
  obtain ⟨source, described⟩ := builder.reads_callIn (Job.ofState state toolchain workRoot) work
    (files.isText absolute shows.1) (files.absolute absolute) (files.source shows.2)
    (files.manifest shows.2)
  refine ⟨?_, fun none => absurd none some, fun _ => ⟨?_, ?_, ?_⟩⟩
  · rw [← sourceText_eq_join]
    exact source
  · rw [← same]; rfl
  · exact Builder.isPackageCall_packageCall ..
  · rw [← written]
    exact described

/-- Unless links or devices are in the way of its files, or the path of their directory is no text,
the tool that a build calls reads the unit that is built. -/
theorem World.build_reads {world after : World} (builder : Builder) (state : UnitState)
    (absolute : workRoot.isAbsolute = true)
    (shows : state.dependencies ≠ [] →
      world.machine.ShowsFiles builder.settings.toolchain workRoot)
    (ran : world.exec (builder.build
      (Job.ofState state builder.settings.toolchain workRoot)) = (result, after)) :
    SameRecords world after ∨
      ∃ invocation machine, Called world after invocation machine ∧
        ReadsUnit builder.settings.toolchain state.fragments state.dependencies
          invocation machine := by
  obtain ⟨events, ran⟩ := exec_build builder _ ran
  have untouched := sameRecords_events world events
  cases declared : state.dependencies with
  | nil =>
    have described : (Job.ofState state builder.settings.toolchain workRoot).manifest = none := by
      simp [Job.ofState, UnitState.hasDependencies, declared]
    rw [described] at ran
    rcases buildDirect_cases builder _ ran with
      ⟨-, same⟩ | ⟨source, archive, machine, files, call, -⟩
    · exact .inl (untouched.trans same)
    · refine .inr ⟨_, machine, call.ofLocal untouched, ?_⟩
      rw [← declared]
      exact files.reads_unit _ state declared
  | cons first rest =>
    have described : (Job.ofState state builder.settings.toolchain workRoot).manifest =
        some (Manifest.ofDependencies state.dependencies
          builder.settings.toolchain.edition).render := by
      simp [Job.ofState, UnitState.hasDependencies, declared]
    rw [described] at ran
    rcases buildPackage_cases builder _ _ ran with ⟨-, same⟩ | ⟨work, machine, files, call, -⟩
    · exact .inl (untouched.trans same)
    · refine .inr ⟨_, machine, call.ofLocal untouched, ?_⟩
      rw [← declared]
      exact files.reads_unit builder _ state rfl absolute (shows (by simp [declared])) rfl
        (by simp [declared])

end FragmentBuild
