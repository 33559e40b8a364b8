import FragmentBuild.Proofs.DiskTree
import FragmentBuild.Proofs.UnitOutcomes
import FragmentBuild.Proofs.WorkContainment

/-! What building units loses. Whatever stood on the disk still stands, but for what a tool has
changed and for what lies in the directory that package builds share. -/
namespace FragmentBuild

/-- A call of the tool that has been made has changed what stands at a location. -/
def World.ToolChanged (world : World) (location : Location) : Prop :=
  ∃ call ∈ world.calls, (world.tool call.1 call.2).2.get? location ≠ call.2.disk.get? location

instance (world : World) (location : Location) : Decidable (world.ToolChanged location) :=
  inferInstanceAs (Decidable (∃ call ∈ world.calls, _))

/-- The package tool was called on a machine. -/
def World.PackageCalledOn (world : World) (machine : Machine) : Prop :=
  ∃ invocation, (invocation, machine) ∈ world.calls ∧ invocation.isPackageCall = true

/-- What a package build in a shared directory may take away: what its two files are written over,
and all in the directory once it comes to removing it. -/
inductive LostToBuild (work : Path) (working : Option Location) (calledOn : Machine → Prop)
    (after : Machine) : Except Failure α → Location → Prop
  | written : calledOn machine → machine.FilesLead work location →
      LostToBuild work working calledOn after result location
  /-- The build may have failed before the tool was called. -/
  | begun : after.FilesLead work location →
      LostToBuild work working calledOn after (.error cause) location
  | removed : work.Contains working location →
      LostToBuild work working calledOn after (.ok archive) location
  /-- A removal that fails may have done a part. -/
  | notRemoved : calledOn machine → work.Contains working location →
      LostToBuild work working calledOn after (.error (.inaccessible work cause)) location

namespace LostToBuild

variable {working earlier : Option Location} {calledOn more : Machine → Prop} {left : Machine}
  {ended : Except Failure α}

theorem mono (lost : LostToBuild work working calledOn left ended location)
    (wider : ∀ machine, calledOn machine → more machine) :
    LostToBuild work working more left ended location := by
  cases lost with
  | written called leads => exact .written (wider _ called) leads
  | begun leads => exact .begun leads
  | removed within => exact .removed within
  | notRemoved called within => exact .notRemoved (wider _ called) within

theorem of_stays (stays : ∀ here, working = some here → earlier = some here)
    (lost : LostToBuild work working calledOn left ended location) :
    LostToBuild work earlier calledOn left ended location := by
  cases lost with
  | written called leads => exact .written called leads
  | begun leads => exact .begun leads
  | removed within => exact .removed (within.of_stays stays)
  | notRemoved called within => exact .notRemoved called (within.of_stays stays)

theorem later (lost : LostToBuild work working calledOn left (.ok archive) location)
    (after : Machine) : LostToBuild work working calledOn after (.ok archive) location := by
  cases lost with
  | written called leads => exact .written called leads
  | removed within => exact .removed within

/-- A build and what comes of its archive take away the same. -/
theorem map (lost : LostToBuild work working calledOn left ended location) (handed : α → β) :
    LostToBuild work working calledOn left (ended.map handed) location := by
  cases lost with
  | written called leads => exact .written called leads
  | begun leads => exact .begun leads
  | removed within => exact .removed within
  | notRemoved called within => exact .notRemoved called within

end LostToBuild

/-- What units with dependencies may take away that are built in a directory they share. -/
def World.LostToUnits (toolchain : Toolchain) (world after : World)
    (ends : List (UnitDescription × Except Failure (Option Path))) (location : Location) : Prop :=
  toolchain.workMode = .fixed ∧ ∃ here, world.machine.working = some here ∧
    ∃ entry ∈ ends, entry.1.dependencies ≠ [] ∧
      LostToBuild ((Machine.locationPath here).child toolchain.workName) world.machine.working
        after.PackageCalledOn after.machine entry.2 location

namespace Machine

theorem Spares.narrow {lost more : Location → Prop} {before after : Machine}
    (spares : Spares more before after)
    (known : ∀ location, more location → lost location ∨ before.disk.get? location = none) :
    Spares lost before after where
  kept location entry safe stands := by
    refine spares.kept location entry (fun gone => ?_) stands
    rcases known location gone with gone | free
    · exact safe gone
    · rw [free] at stands
      cases stands
  stays := spares.stays

end Machine

namespace World

variable {world after : World} {location : Location}

theorem answer_calls (world : World) (request : Request) :
    world.calls <+: (world.answer request).2.calls := by
  cases request with
  | call invocation => exact List.prefix_append _ _
  | _ => exact List.prefix_refl _

theorem calls_grow (world : World) (program : Program α) :
    world.calls <+: (world.run program).2.calls := by
  induction program generalizing world with
  | done value => exact List.prefix_refl _
  | ask request next ih => exact (answer_calls world request).trans (ih _ _)

theorem run_tool (world : World) (program : Program α) :
    (world.run program).2.tool = world.tool := (runs_run .anything world program).fixed.2

theorem calls_ran {program : Program α} (ran : world.run program = (value, after)) :
    world.calls <+: after.calls ∧ after.tool = world.tool := by
  have calls := calls_grow world program
  have tool := run_tool world program
  rw [ran] at calls tool
  exact ⟨calls, tool⟩

theorem isTree_ran {program : Program α} (ran : world.run program = (value, after))
    (sane : Tool.KeepsTree world.tool) (tree : world.machine.disk.IsTree) :
    after.machine.disk.IsTree ∧ Tool.KeepsTree after.tool := by
  have treeToo := run_isTree world program sane tree
  rw [ran] at treeToo
  exact ⟨treeToo, (calls_ran ran).2 ▸ sane⟩

theorem mem_calls_of_record {program : Program α} {before left : Machine}
    (member : (⟨.call invocation, answered, before, left⟩ : Exchange) ∈ world.record program) :
    (invocation, before) ∈ (world.run program).2.calls ∧
      left.disk = (world.tool invocation before).2 := by
  induction program generalizing world with
  | done value => cases member
  | ask request next ih =>
    rcases List.mem_cons.mp member with here | later
    · cases request with
      | call other =>
        cases here
        refine ⟨(calls_grow _ (next _)).subset ?_, rfl⟩
        exact List.mem_append_right _ (List.mem_singleton_self _)
      | _ => cases here
    · have told := ih _ later
      rwa [show (world.answer request).2.tool = world.tool from run_tool world (.request request)]
        at told

theorem toolChanged_of_record {program : Program α}
    (changed : ChangedByTool (world.record program) location) :
    (world.run program).2.ToolChanged location := by
  obtain ⟨invocation, answered, before, left, member, differs⟩ := changed
  obtain ⟨told, same⟩ := mem_calls_of_record member
  refine ⟨_, told, ?_⟩
  rwa [run_tool, ← same]

open Machine (Spares)

variable {mishap : Mishap} {trace : List Exchange}

theorem discard_spares (names : path.Names world.machine.working location) :
    Spares (· = location) world.machine
      (world.run (Task.requestAll [.discardFile path])).2.machine :=
  (answer_touches world (.discardFile path)).spares fun _ other => .inl (other.eq names)

/-- Compiling loses nothing but by the tool: there was nothing yet where the archive is made. -/
theorem ends_compileDirect_spares (clean : mishap.IsClean) (builder : Builder) (job : Job)
    (source : Path)
    (ended : Ends mishap world (builder.compileDirect job source) trace result after) :
    Spares (ChangedByTool trace) world.machine after.machine := by
  obtain ⟨first, rest, outcome, reserving, rfl, reserved, later⟩ := ended.bind
  rcases ends_newFile builder.scratch ".a" (by decide) reserved with
    ⟨failure, rfl, -, grown⟩ | ⟨archive, location, between, rfl, -, fresh, grown⟩
  · obtain ⟨-, rfl, rfl⟩ := later
    exact (grown clean).spares fun _ => False.elim
  obtain ⟨second, last, outcome, final, rfl, compiled, went⟩ := Ends.bind later
  obtain ⟨asked, given, called, rfl, calling, gaveUp⟩ := ends_onFailure compiled
  obtain ⟨reported, within, events, rfl, -, calls⟩ := ends_report_bind calling
  obtain ⟨answered, call, -⟩ := ends_callTool builder _ _ calls
  have free : world.machine.disk.get? location = none := (grown clean).disk.free id fresh.free
  have names : archive.Names called.machine.working location :=
    (Path.names_of_locate ((Machine.find_eq_ok_iff ..).mp fresh.found).1).of_absolute
      fresh.absolute _
  have part : within ⊆ first ++ (reported ++ within ++ given ++ last) := fun exchange member => by
    simp [member]
  generalize first ++ (reported ++ within ++ given ++ last) = trace at part
  have made : Machine.Touches (· = location) (fun _ => False) between reserving.machine :=
    fresh.touches
  have worked : Spares (fun other => ChangedByTool trace other ∨ other = location) world.machine
      called.machine :=
    (((grown clean).spares fun _ => False.elim).trans
      (made.spares fun _ same => .inl (.inr same))).trans
      (call.spares.weaken fun _ changed => .inl (changed.mono part))
  suffices ended : Spares (fun other => ChangedByTool trace other ∨ other = location) world.machine
      after.machine from ended.narrow fun other => .imp_right fun same => by rw [same, free]
  cases outcome with
  | ok done =>
    obtain ⟨rfl, rfl⟩ := gaveUp
    obtain ⟨-, rfl, rfl⟩ := ends_pure went
    exact worked
  | error failure =>
    obtain ⟨-, rfl⟩ := runs_discardFile gaveUp
    obtain ⟨-, rfl, rfl⟩ := went
    exact worked.trans ((discard_spares names).weaken fun _ => .inr)

theorem ends_buildDirect_spares (clean : mishap.IsClean) (builder : Builder) (job : Job)
    (ended : Ends mishap world (builder.buildDirect job) trace result after) :
    Spares (ChangedByTool trace) world.machine after.machine := by
  rw [Builder.buildDirect_eq] at ended
  obtain ⟨first, rest, outcome, middle, rfl, sourced, later⟩ := ended.bind
  rcases ends_sourceFile builder.scratch job.source sourced with
    ⟨failure, rfl, -, grown⟩ | ⟨source, place, rfl, -, absolute, -, written⟩
  · obtain ⟨-, rfl, rfl⟩ := later
    exact (grown clean).spares fun _ => False.elim
  obtain ⟨free, ⟨mode, held⟩, made, -⟩ := written clean
  obtain ⟨inner, given, inside, rfl, within, discarded⟩ := ends_thenDiscard later
  obtain ⟨-, rfl⟩ := runs_discardFile discarded
  have names : source.Names inside.machine.working place :=
    (Path.names_of_locate ((Machine.find_eq_ok_iff ..).mp held).1).of_absolute absolute _
  have compiled := ends_compileDirect_spares clean builder job source within
  have worked : Spares (fun other => ChangedByTool (first ++ (inner ++ given)) other ∨
      other = place) world.machine (inside.run (Task.requestAll [.discardFile source])).2.machine :=
    ((made.spares fun _ same => .inl (.inr same)).trans
      (compiled.weaken fun _ changed => .inl (changed.mono fun exchange member => by
        simp [member]))).trans ((discard_spares names).weaken fun _ => .inr)
  exact worked.narrow fun other => .imp_right fun same => by rw [same, free]

/-- The package tool was called on a machine in a run. -/
def PackageCallIn (trace : List Exchange) (machine : Machine) : Prop :=
  ∃ invocation answered left,
    (⟨.call invocation, answered, machine, left⟩ : Exchange) ∈ trace ∧
      invocation.isPackageCall = true

theorem PackageCallIn.mono {more : List Exchange} {machine : Machine}
    (called : PackageCallIn trace machine) (within : trace ⊆ more) :
    PackageCallIn more machine := by
  obtain ⟨invocation, answered, left, member, package⟩ := called
  exact ⟨invocation, answered, left, within member, package⟩

/-- The work in a directory loses what its two files are written over and, if it succeeds, the
archive that is moved away. -/
theorem ends_buildIn_losses (clean : mishap.IsClean) (builder : Builder) (job : Job)
    (manifest : String) (work : WorkDirectory)
    (ended : Ends mishap world (builder.buildIn job manifest work) trace result after) :
    ∃ written : Machine,
      (∀ path place, written.aim path = .ok place ↔ world.machine.aim path = .ok place) ∧
      ((∃ failure, result = .error failure) ∧ after.machine = written ∨
        PackageCallIn trace written) ∧
      Spares (fun location => ChangedByTool trace location ∨
          written.FilesLead work.path location ∨
          (∃ archive, result = .ok archive) ∧ work.path.Contains world.machine.working location)
        world.machine after.machine := by
  obtain ⟨first, rest, outcome, middle, rfl, -, compiled, handed⟩ :=
    ends_buildIn builder job manifest work ended
  obtain ⟨written, aims, touches, called⟩ :=
    ends_compileIn_written clean builder job manifest work compiled
  have wrote : Spares (fun location => ChangedByTool (first ++ rest) location ∨
      written.FilesLead work.path location ∨
      (∃ archive, result = .ok archive) ∧ work.path.Contains world.machine.working location)
      world.machine written := touches.spares fun location leads => .inl (.inr (.inl leads))
  rcases called with ⟨⟨failure, rfl⟩, same⟩ | ⟨answered, call⟩
  · obtain ⟨rfl, rfl, rfl⟩ := handed
    rw [same]
    exact ⟨written, aims, .inl ⟨⟨failure, rfl⟩, rfl⟩, wrote⟩
  have package : PackageCallIn (first ++ rest) written := ⟨_, _, _,
    List.mem_append_left _ call.member, Builder.isPackageCall_packageCall ..⟩
  have compiles := wrote.trans (call.spares.weaken fun location changed =>
    .inl (changed.mono fun exchange member => List.mem_append_left rest member))
  refine ⟨written, aims, .inr package, ?_⟩
  cases outcome with
  | error failure =>
    obtain ⟨rfl, rfl, rfl⟩ := handed
    exact compiles
  | ok done =>
    rcases handed with ⟨failure, rfl, -, left⟩ | ⟨archive, location, rfl, -, -, moved⟩
    · exact compiles.trans ((left clean).spares fun _ => False.elim)
    · have relocated := moved clean
      refine compiles.trans (relocated.touches.spares ?_)
      rintro other (names | rfl)
      · exact .inl (.inr (.inr ⟨⟨archive, rfl⟩,
          ((Builder.hasInside_of_told work names).of_stays compiles.stays).contains⟩))
      · exact .inr relocated.free

theorem NewDirectory.empty {before made : Machine} (tree : before.disk.IsTree)
    (new : NewDirectory given parent start before made path place) (some : more ≠ []) :
    made.disk.get? (place ++ more) = none := by
  have apart : place ++ more ≠ place := by simpa using some
  rw [new.made]
  exact (Disk.get?_put_of_ne _ _ apart).trans (tree.free_below new.free more)

/-- The two files of a build lie in its directory when that is new: no link is there yet. -/
theorem NewDirectory.filesLead {before made written : Machine} (tree : before.disk.IsTree)
    (new : NewDirectory given parent start before made path place)
    (aims : ∀ target goal, written.aim target = .ok goal ↔ made.aim target = .ok goal)
    (leads : written.FilesLead path location) : place <+: location := by
  have inside {name : String} (plain : Path.IsPlainName name)
      (aimed : written.aim (path.child name) = .ok location) : place <+: location := by
    rw [Machine.aim_in_empty new.absolute new.leads (fun _ => new.empty tree) plain
      ((aims _ _).mp aimed)]
    exact List.prefix_append _ _
  exact leads.elim (inside isPlainName_source) (inside isPlainName_manifest)

/-- A package build in a directory of its own loses nothing but by the tool: there was nothing yet
where it works. -/
theorem ends_buildPackage_losses_unique (clean : mishap.IsClean)
    (tree : world.machine.disk.IsTree) (builder : Builder) (job : Job) (manifest : String)
    (unique : builder.settings.toolchain.workMode = .unique)
    (ended : Ends mishap world (builder.buildPackage job manifest) trace result after) :
    Spares (ChangedByTool trace) world.machine after.machine := by
  rcases ends_buildPackage builder job manifest ended with ⟨failure, rfl, making⟩ |
    ⟨first, inside, rest, work, made, outcome, built, rfl, making, building, ends⟩
  all_goals rw [unique] at making
  · obtain ⟨_, -, same⟩ | ⟨_, _, ⟨⟩, -⟩ := ends_makeUnique clean _ _ making
    rw [same]
    exact .refl _
  obtain ⟨_, ⟨⟩, -⟩ | ⟨path, place, same, new, -⟩ := ends_makeUnique clean _ _ making
  cases same
  obtain ⟨written, aims, -, losses⟩ := ends_buildIn_losses clean builder job manifest _ building
  have part : inside ⊆ first ++ (inside ++ rest) := fun exchange member => by simp [member]
  have worked : Spares (fun location => ChangedByTool (first ++ (inside ++ rest)) location ∨
      place <+: location) world.machine built.machine := by
    have prepared : Machine.Touches (· = place) (fun _ => False) world.machine made.machine :=
      new.touches
    refine (prepared.spares fun location same => .inl (.inr (same ▸ List.prefix_refl _))).trans
      (losses.weaken fun location lost => ?_)
    rcases lost with changed | leads | ⟨-, within⟩
    · exact .inl (changed.mono part)
    · exact .inr (new.filesLead tree aims leads)
    · exact .inr ((new.contains_iff _ _).mp within)
  have removes {left : Machine}
      (touches : Machine.Touches (path.Contains built.machine.working) (fun _ => False)
        built.machine left) : Spares (fun location =>
          ChangedByTool (first ++ (inside ++ rest)) location ∨ place <+: location)
        world.machine left :=
    worked.trans (touches.spares fun location within =>
      .inl (.inr ((new.contains_iff _ _).mp within)))
  suffices ended : Spares (fun location => ChangedByTool (first ++ (inside ++ rest)) location ∨
      place <+: location) world.machine after.machine from
    ended.narrow fun location => .imp_right fun ⟨more, same⟩ =>
      same ▸ tree.free_below new.free more
  cases outcome with
  | error failure =>
    obtain ⟨-, gaveUp⟩ := ends
    refine removes ?_
    rw [(runs_givenUp (.unique path) gaveUp).2]
    exact Machine.touches_withDisk (Disk.changesOnly_removeTree _ _ _)
  | ok archive =>
    obtain ⟨removed, removing, -⟩ := ends
    obtain ⟨answered, -, -, -, left⟩ := ends_removeWork _ removing
    exact removes (left clean)

theorem ends_buildPackage_losses_fixed (clean : mishap.IsClean) (builder : Builder) (job : Job)
    (manifest : String) (fixed : builder.settings.toolchain.workMode = .fixed)
    (ended : Ends mishap world (builder.buildPackage job manifest) trace result after) :
    Spares (fun location => ChangedByTool trace location ∨
        LostToBuild (job.workRoot.child builder.settings.toolchain.workName)
          world.machine.working (PackageCallIn trace) after.machine result location)
      world.machine after.machine := by
  rcases ends_buildPackage builder job manifest ended with ⟨failure, rfl, making⟩ |
    ⟨first, inside, rest, work, made, outcome, built, rfl, making, building, ends⟩
  all_goals rw [fixed] at making
  · exact (ends_makeFixed clean _ _ making).2.spares fun _ => False.elim
  obtain ⟨⟨_, ⟨⟩⟩ | same, grown⟩ := ends_makeFixed clean _ _ making
  cases same
  obtain ⟨written, aims, called, losses⟩ :=
    ends_buildIn_losses clean builder job manifest _ building
  have part : inside ⊆ first ++ (inside ++ rest) := fun exchange member => by simp [member]
  cases outcome with
  | error failure =>
    obtain ⟨rfl, gaveUp⟩ := ends
    obtain ⟨-, rfl⟩ := runs_givenUp (.fixed _) gaveUp
    refine (grown.spares fun _ => False.elim).trans (losses.weaken fun location lost => ?_)
    rcases lost with changed | leads | ⟨⟨archive, ⟨⟩⟩, -⟩
    · exact .inl (changed.mono part)
    · rcases called with ⟨-, same⟩ | called
      · exact .inr (.begun (same ▸ leads))
      · exact .inr (.written (called.mono part) leads)
  | ok archive =>
    obtain ⟨⟨_, ⟨⟩⟩, -⟩ | called := called
    obtain ⟨removed, removing, rfl⟩ := ends
    obtain ⟨-, -, -, -, left⟩ := ends_removeWork _ removing
    have contained {location : Location}
        (within : (job.workRoot.child builder.settings.toolchain.workName).Contains
          world.machine.working location) :
        LostToBuild (job.workRoot.child builder.settings.toolchain.workName)
          world.machine.working (PackageCallIn (first ++ (inside ++ rest))) after.machine
          (removed.map fun _ => archive) location := by
      obtain ⟨answered, -, rfl⟩ := ends_orInaccessible removing
      cases answered with
      | ok done => exact .removed within
      | error cause => exact .notRemoved (called.mono part) within
    refine (grown.spares fun _ => False.elim).trans ((losses.weaken fun location lost => ?_).trans ?_)
    · rcases lost with changed | leads | ⟨-, within⟩
      · exact .inl (changed.mono part)
      · exact .inr (.written (called.mono part) leads)
      · exact .inr (contained (within.of_stays grown.stays))
    · exact (left clean).spares fun location within =>
        .inl (.inr (contained ((within.of_stays losses.stays).of_stays grown.stays)))

/-- A build loses nothing but by the tool and, if package builds share a directory, to that. -/
theorem ends_build_spares (clean : mishap.IsClean) (tree : world.machine.disk.IsTree)
    (builder : Builder) (job : Job)
    (ended : Ends mishap world (builder.build job) trace result after) :
    Spares (fun location => ChangedByTool trace location ∨
        builder.settings.toolchain.workMode = .fixed ∧ job.manifest ≠ none ∧
          LostToBuild (job.workRoot.child builder.settings.toolchain.workName)
            world.machine.working (PackageCallIn trace) after.machine result location)
      world.machine after.machine := by
  obtain ⟨first, rest, events, rfl, -, ended⟩ := ends_build builder job ended
  have part : rest ⊆ first ++ rest := fun _ => List.mem_append_right first
  cases described : job.manifest with
  | none =>
    rw [described] at ended
    exact (ends_buildDirect_spares clean builder job ended).weaken fun _ changed =>
      .inl (changed.mono part)
  | some manifest =>
    rw [described] at ended
    have treeToo : ({ world with events } : World).machine.disk.IsTree := tree
    cases mode : builder.settings.toolchain.workMode with
    | unique =>
      exact (ends_buildPackage_losses_unique clean treeToo builder job manifest mode ended).weaken
        fun _ changed => .inl (changed.mono part)
    | fixed =>
      exact (ends_buildPackage_losses_fixed clean builder job manifest mode ended).weaken
        fun _ => .imp (·.mono part) fun lost =>
          ⟨rfl, nofun, lost.mono fun _ called => called.mono part⟩

/-- The machines between which nothing is lost but by the tool and to units that share a
directory. -/
abbrev Keeps (toolchain : Toolchain) (world after : World)
    (ends : List (UnitDescription × Except Failure (Option Path))) : Prop :=
  Spares (fun location => after.ToolChanged location ∨
    world.LostToUnits toolchain after ends location) world.machine after.machine

theorem build_keeps {builder : Builder} {job : Job} (tree : world.machine.disk.IsTree)
    (ran : world.exec (builder.build job) = (result, after)) :
    Spares (fun location => after.ToolChanged location ∨
        builder.settings.toolchain.workMode = .fixed ∧ job.manifest ≠ none ∧
          LostToBuild (job.workRoot.child builder.settings.toolchain.workName)
            world.machine.working after.PackageCalledOn after.machine result location)
      world.machine after.machine := by
  have ends : Ends .refusals world (builder.build job) (world.record (builder.build job).run)
      (world.exec (builder.build job)).1 (world.exec (builder.build job)).2 := runs_run _ _ _
  have told (location : Location)
      (changed : ChangedByTool (world.record (builder.build job).run) location) :
      (world.exec (builder.build job)).2.ToolChanged location := toolChanged_of_record changed
  have called (machine : Machine)
      (called : PackageCallIn (world.record (builder.build job).run) machine) :
      (world.exec (builder.build job)).2.PackageCalledOn machine := by
    obtain ⟨invocation, answered, left, member, package⟩ := called
    exact ⟨invocation, (mem_calls_of_record member).1, package⟩
  rw [ran] at ends told called
  exact (ends_build_spares Mishap.isClean_refusals tree builder job ends).weaken
    fun location => .imp (told location) fun ⟨fixed, described, lost⟩ =>
      ⟨fixed, described, lost.mono called⟩

theorem finishing_keeps {settings : Settings} {builder : Builder} {unit : UnitDescription}
    (same : builder.settings = settings) (tree : world.machine.disk.IsTree)
    (declared : state.dependencies = unit.dependencies)
    (ran : world.exec (Compilation.finishing settings builder unit.name state) =
      (result, after)) :
    Keeps settings.toolchain world after [(unit, result.map some)] := by
  subst same
  rw [Compilation.finishing_eq] at ran
  obtain ⟨outcome, built, begun, handed⟩ := exec_bind_ran ran
  obtain ⟨events, building⟩ := exec_building builder.settings builder unit.name state begun
  have kept : Keeps builder.settings.toolchain world built [(unit, outcome.map some)] := by
    cases stands : world.machine.working with
    | none =>
      rw [stands] at building
      obtain ⟨-, rfl⟩ := building
      exact .refl _
    | some here =>
      rw [stands] at building
      have treeToo : ({ world with events } : World).machine.disk.IsTree := tree
      have kept := build_keeps treeToo building
      refine kept.weaken fun location => .imp_right fun ⟨fixed, described, lost⟩ =>
        ⟨fixed, here, stands, _, List.mem_singleton_self _, ?_, ?_⟩
      · rw [← declared]
        rintro none
        exact described (by simp [Job.ofState, UnitState.hasDependencies, none])
      · exact lost.map some
  cases outcome with
  | error failure =>
    cases handed
    exact kept
  | ok archive =>
    obtain ⟨later, linked⟩ := Compilation.exec_handing built builder unit.name archive
    cases linked.symm.trans handed
    exact kept

theorem Comes.keeps {run next : Run} (comes : Comes world run unit result next after)
    (same : run.compilation.builder.settings = run.compilation.settings)
    (tree : world.machine.disk.IsTree) :
    Keeps run.compilation.settings.toolchain world after [(unit, result)] := by
  rcases comes.outcome with ⟨-, -, rfl⟩ | ⟨-, -, events, rfl⟩ |
    ⟨-, events, state, built, rfl, declared, finished⟩
  · exact .refl _
  · exact .refl _
  · have treeToo : ({ world with events } : World).machine.disk.IsTree := tree
    have kept := finishing_keeps same treeToo declared finished
    exact kept

theorem Comes.settings {run next : Run} (comes : Comes world run unit result next after) :
    next.compilation.settings = run.compilation.settings ∧
      next.compilation.builder = run.compilation.builder := by
  cases comes <;> exact ⟨rfl, rfl⟩

theorem PackageCalledOn.mono {middle : World} {machine : Machine}
    (called : middle.PackageCalledOn machine) (more : middle.calls <+: after.calls) :
    after.PackageCalledOn machine :=
  called.imp fun _ both => ⟨more.subset both.1, both.2⟩

theorem Keeps.weaken {toolchain : Toolchain} (keeps : Keeps toolchain world after ends)
    (within : ends ⊆ more) : Keeps toolchain world after more :=
  Machine.Spares.weaken keeps fun _ => .imp_right fun ⟨fixed, here, stands, entry, member, lost⟩ =>
    ⟨fixed, here, stands, entry, within member, lost⟩

theorem Keeps.trans {toolchain : Toolchain} {middle : World}
    (first : Keeps toolchain world middle [(unit, .ok archive)])
    (later : Keeps toolchain middle after ends)
    (ran : middle.calls <+: after.calls ∧ after.tool = middle.tool) :
    Keeps toolchain world after ((unit, .ok archive) :: ends) := by
  refine (Machine.Spares.weaken first fun location lost => ?_).trans
    (Machine.Spares.weaken later fun location lost => ?_)
  · rcases lost with ⟨call, told, differs⟩ | ⟨fixed, here, stands, entry, member, declared, lost⟩
    · exact .inl ⟨call, ran.1.subset told, by rwa [ran.2]⟩
    · obtain rfl := List.mem_singleton.mp member
      exact .inr ⟨fixed, here, stands, _, List.mem_cons_self, declared,
        (lost.mono fun machine called => called.mono ran.1).later after.machine⟩
  · refine lost.imp_right fun ⟨fixed, here, stands, entry, member, declared, lost⟩ => ?_
    exact ⟨fixed, here, first.stays here stands, entry, List.mem_cons_of_mem _ member, declared,
      lost.of_stays first.stays⟩

end World

namespace Run.Builds

variable {run : Run} {world after : World} {units : List UnitDescription}
  {archives : List (Option Path)} {verdict : Option Failure}

theorem calls_ran (builds : Builds run world units archives verdict after) :
    world.calls <+: after.calls ∧ after.tool = world.tool := by
  induction builds with
  | done => exact ⟨List.prefix_refl _, rfl⟩
  | finished steps told rest ih =>
    obtain ⟨calls, tool⟩ := World.calls_ran steps
    exact ⟨calls.trans ih.1, ih.2.trans tool⟩
  | failed steps told => exact World.calls_ran steps

/-- What the units came to that were reached. -/
def ends (units : List UnitDescription) (archives : List (Option Path))
    (verdict : Option Failure) : List (UnitDescription × Except Failure (Option Path)) :=
  units.zip (archives.map Except.ok ++ verdict.toList.map Except.error)

/-- Building units loses nothing but by the tool and to units that share a directory. -/
theorem keeps (builds : Builds run world units archives verdict after)
    (idle : run.collectors = [])
    (same : run.compilation.builder.settings = run.compilation.settings)
    (tree : world.machine.disk.IsTree) (sane : Tool.KeepsTree world.tool) :
    world.Keeps run.compilation.settings.toolchain after (ends units archives verdict) := by
  induction builds with
  | done => exact .refl _
  | finished steps told rest ih =>
    have comes : World.Comes _ _ _ (.ok _) _ _ := World.comes_of_reply idle steps told rfl
    have first := comes.keeps same tree
    obtain ⟨settings, builder⟩ := comes.settings
    obtain ⟨treeToo, saneToo⟩ := World.isTree_ran steps sane tree
    have later := ih (comes.idle idle) (by rw [builder, settings, same]) treeToo saneToo
    rw [settings] at later
    exact first.trans later rest.calls_ran
  | failed steps told =>
    have comes : World.Comes _ _ _ (.error _) _ _ := World.comes_of_reply idle steps told rfl
    exact (comes.keeps same tree).weaken (by simp [ends])

end Run.Builds

end FragmentBuild
