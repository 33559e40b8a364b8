import FragmentBuild.Proofs.CleanPackages

/-! Where package builds work, and what they leave outside of that place. The place is wherever
the configured name leads from the directory of the job: below it for a plain name, but also that
directory itself or any other one. -/
namespace FragmentBuild

/-- A call of the tool has changed what stands at a location. -/
def ChangedByTool (trace : List Exchange) (location : Location) : Prop :=
  ∃ invocation answered before left,
    (⟨.call invocation, answered, before, left⟩ : Exchange) ∈ trace ∧
      left.disk.get? location ≠ before.disk.get? location

theorem ChangedByTool.mono (changed : ChangedByTool trace location) (within : trace ⊆ more) :
    ChangedByTool more location := by
  obtain ⟨invocation, answered, before, left, member, differs⟩ := changed
  exact ⟨invocation, answered, before, left, within member, differs⟩

/-- What stands at a location has changed in another way than by its own path: by a call of the
tool, or through a link. -/
def ChangedFromAfar (trace : List Exchange) (location : Location) : Prop :=
  ChangedByTool trace location ∨ World.PutThroughLink trace location

theorem ChangedFromAfar.mono (changed : ChangedFromAfar trace location) (within : trace ⊆ more) :
    ChangedFromAfar more location :=
  changed.imp (·.mono within) (·.mono within)

namespace Machine

/-- Whatever stood on a disk, but for what may be lost, still stands as it did. -/
structure Spares (lost : Location → Prop) (before after : Machine) : Prop where
  kept : ∀ location entry, ¬ lost location → before.disk.get? location = some entry →
    after.disk.get? location = some entry
  stays : ∀ here, after.working = some here → before.working = some here

variable {lost : Location → Prop} {before middle after : Machine}

theorem Spares.refl (machine : Machine) : Spares lost machine machine :=
  ⟨fun _ _ _ => id, fun _ => id⟩

theorem Spares.trans (first : Spares lost before middle) (second : Spares lost middle after) :
    Spares lost before after where
  kept location entry safe stands :=
    second.kept location entry safe (first.kept location entry safe stands)
  stays here stands := first.stays here (second.stays here stands)

theorem Spares.weaken (spares : Spares lost before after)
    (wider : ∀ location, lost location → more location) : Spares more before after :=
  ⟨fun location entry safe => spares.kept location entry fun gone => safe (wider location gone),
    spares.stays⟩

theorem Touches.spares (touches : Touches places made before after)
    (known : ∀ location, places location →
      lost location ∨ before.disk.get? location = none) : Spares lost before after where
  kept location entry safe stands := by
    refine touches.disk.keeps (fun inside => ?_) stands
    rcases known location inside with gone | free
    · exact safe gone
    · rw [stands] at free
      cases free
  stays := touches.stays

end Machine

/-- The place where a package build works: what the configured name leads to from the directory
of the job, in unique mode with a name behind it that was given out. -/
def Builder.WorksIn (builder : Builder) (job : Job) (world : World) (place : Location) : Prop :=
  ∃ ending,
    (match builder.settings.toolchain.workMode with
      | .fixed => ending = ""
      | .unique => ∃ number, ending = world.names number) ∧
    (job.workRoot.child (builder.settings.toolchain.workName ++ ending)).Names
      world.machine.working place

namespace World

open Machine (Spares)

variable {mishap : Mishap} {world after : World} {trace : List Exchange}

theorem CallIn.spares {before left : Machine} (call : CallIn trace invocation answered before left) :
    Spares (ChangedByTool trace) before left where
  kept location entry safe stands := by
    by_contra lost
    refine safe ⟨_, _, _, _, call.member, ?_⟩
    rwa [stands]
  stays here stands := by
    rw [call.changed] at stands
    exact World.working_filter stands

/-- Until the tool is done, nothing is lost outside the directory but by the tool or through a
link, and nothing at all if there is no directory. -/
theorem ends_compileIn_spares (clean : mishap.IsClean) (builder : Builder) (job : Job)
    (manifest : String) (work : WorkDirectory)
    (ended : Ends mishap world (builder.compileIn job manifest work) trace result after) :
    Spares (fun location => work.path.HasInside world.machine.working location ∨
        ChangedFromAfar trace location) world.machine after.machine ∧
      ((∃ place, work.path.Names world.machine.working place) ∨
        (∃ failure, result = .error failure) ∧
          Spares (fun _ => False) world.machine after.machine) := by
  rcases ends_compileIn clean builder job manifest work ended with
    ⟨failure, rfl, -, touches⟩ | ⟨machine, root, answered, prepared, call, -⟩
  · refine ⟨touches.spares fun location ⟨root, names, own⟩ =>
      .inl (own.imp names.hasInside .inr), ?_⟩
    by_cases somewhere : ∃ place, work.path.Names world.machine.working place
    · exact .inl somewhere
    · exact .inr ⟨⟨failure, rfl⟩, touches.spares fun location ⟨root, names, _⟩ =>
        absurd ⟨root, names⟩ somewhere⟩
  · have before : Spares (fun location => work.path.HasInside world.machine.working location ∨
        ChangedFromAfar trace location) world.machine machine :=
      prepared.touches.spares fun location own => .inl (own.imp prepared.named.hasInside .inr)
    exact ⟨before.trans (call.spares.weaken fun _ changed => .inr (.inl changed)),
      .inl ⟨root, prepared.named⟩⟩

theorem ends_buildIn_spares (clean : mishap.IsClean) (builder : Builder) (job : Job)
    (manifest : String) (work : WorkDirectory)
    (ended : Ends mishap world (builder.buildIn job manifest work) trace result after) :
    Spares (fun location => work.path.HasInside world.machine.working location ∨
        ChangedFromAfar trace location) world.machine after.machine ∧
      (∀ archive, result = .ok archive → ¬ after.machine.IsLink work.path) ∧
      ((∃ place, work.path.Names world.machine.working place) ∨
        (∃ failure, result = .error failure) ∧
          Spares (fun _ => False) world.machine after.machine) := by
  obtain ⟨first, rest, outcome, middle, rfl, -, compiled, handed⟩ :=
    ends_buildIn builder job manifest work ended
  obtain ⟨spares, called⟩ := ends_compileIn_spares clean builder job manifest work compiled
  have compiles := spares.weaken fun location => Or.imp_right fun changed =>
    changed.mono fun exchange member => List.mem_append_left rest member
  have told (location : Location)
      (names : (Builder.toldIn work).Names middle.machine.working location) :
      work.path.HasInside world.machine.working location :=
    (Builder.hasInside_of_told work names).of_stays spares.stays
  cases outcome with
  | error failure =>
    obtain ⟨rfl, rfl, rfl⟩ := handed
    rw [List.append_nil] at compiles ⊢
    exact ⟨compiles, nofun, called.imp_right fun both => ⟨⟨failure, rfl⟩, both.2⟩⟩
  | ok done =>
    have somewhere := called.resolve_right fun both => by
      obtain ⟨⟨failure, ⟨⟩⟩, -⟩ := both
    rcases handed with ⟨failure, rfl, -, left⟩ | ⟨archive, location, rfl, -, -, moved⟩
    · exact ⟨compiles.trans ((left clean).spares fun _ => False.elim), nofun, .inl somewhere⟩
    · have relocated := moved clean
      obtain ⟨root, enters⟩ := Builder.enters_of_told work relocated.stood
      refine ⟨compiles.trans (relocated.touches.spares ?_), fun _ _ =>
        enters.not_isLink relocated.touches.stays relocated.keepsDirectories, .inl somewhere⟩
      rintro other (names | rfl)
      · exact .inl (.inl (told other names))
      · exact .inr relocated.free

/-- Once there is a directory, what stands outside of it stays, but for what the tool does and
what a link leads to. All inside it is gone after a success. -/
theorem concludes_spares {made built : World} (clean : mishap.IsClean) (builder : Builder)
    (job : Job) (manifest : String) (work : WorkDirectory)
    (building : Ends mishap made (builder.buildIn job manifest work) inside outcome built)
    (ends : Concludes mishap work built outcome rest result after) :
    Spares (fun location => work.path.Contains made.machine.working location ∨
        ChangedFromAfar inside location) made.machine after.machine ∧
      ∀ archive, result = .ok archive → ∃ place, work.path.Names made.machine.working place ∧
        ∀ location, StrictlyBelow place location → after.machine.disk.get? location = none := by
  obtain ⟨spares, noLink, -⟩ := ends_buildIn_spares clean builder job manifest work building
  have works := spares.weaken fun location => Or.imp_left (·.contains)
  have removes (location : Location)
      (within : work.path.Contains built.machine.working location) :
      work.path.Contains made.machine.working location := within.of_stays spares.stays
  cases outcome with
  | error failure =>
    obtain ⟨rfl, gaveUp⟩ := ends
    refine ⟨?_, nofun⟩
    have left := runs_givenUp work gaveUp
    cases work with
    | fixed path =>
      obtain ⟨-, rfl⟩ := left
      exact works
    | unique path =>
      have given : Machine.Touches (path.Contains built.machine.working) (fun _ => False)
          built.machine after.machine := by
        rw [left.2]
        exact Machine.touches_withDisk (Disk.changesOnly_removeTree _ _ _)
      exact works.trans (given.spares fun location within => .inl (.inl (removes location within)))
  | ok archive =>
    obtain ⟨removed, removing, rfl⟩ := ends
    obtain ⟨answered, -, told, cleared, left⟩ := ends_removeWork work removing
    refine ⟨works.trans ((left clean).spares fun location within =>
      .inl (.inl (removes location within))), fun reported success => ?_⟩
    have done : removed = .ok () := by
      cases removed with
      | error failure => cases success
      | ok done => rfl
    have isDirectory (location : Location) (target : Path) :
        built.machine.find work.path ≠ .ok (location, .link target) := fun link =>
      noLink archive rfl ⟨location, target, link⟩
    obtain ⟨start, root, -, found, -, taken⟩ :=
      Disk.removeTree_eq_ok isDirectory (cleared (told.mp done))
    have names := Path.names_of_locate ((Disk.find_eq_ok_iff ..).mp found).1
    refine ⟨root, names.of_stays spares.stays, fun location below => ?_⟩
    rw [taken, if_pos (.inl below)]

/-- What stands outside of a place is still there, but for what the tool has changed or a link has
led to, and after a success nothing is left inside it. -/
structure SparesOutside (place : Location) (trace : List Exchange) (before after : Machine)
    (result : Except Failure Path) : Prop where
  spares : Spares (fun location => place <+: location ∨ ChangedFromAfar trace location) before
    after
  emptied : ∀ archive, result = .ok archive → ∀ location, StrictlyBelow place location →
    after.disk.get? location = none

/-- A package build in a directory of its own works where nothing stood. -/
theorem ends_buildPackage_spares_unique (clean : mishap.IsClean)
    (working : ∀ here, world.machine.working = some here → IsPlainLocation here)
    (builder : Builder) (job : Job) (manifest : String)
    (unique : builder.settings.toolchain.workMode = .unique)
    (ended : Ends mishap world (builder.buildPackage job manifest) trace result after) :
    ((∃ failure, result = .error failure) ∧
        Spares (fun _ => False) world.machine after.machine) ∨
      ∃ place, builder.WorksIn job world place ∧ world.machine.disk.get? place = none ∧
        SparesOutside place trace world.machine after.machine result := by
  rcases ends_buildPackage builder job manifest ended with ⟨failure, rfl, making⟩ |
    ⟨first, inside, rest, work, made, outcome, built, rfl, making, building, ends⟩
  all_goals rw [unique] at making
  · rcases ends_makeUnique clean _ _ making with ⟨_, -, same⟩ | ⟨_, _, ⟨⟩, -⟩
    rw [same]
    exact .inl ⟨⟨failure, rfl⟩, .refl _⟩
  obtain ⟨_, ⟨⟩, -⟩ | ⟨path, place, same, new, -⟩ := ends_makeUnique clean _ _ making
  cases same
  obtain ⟨worked, cleared⟩ := concludes_spares clean builder job manifest _ building ends
  have works : builder.WorksIn job world place := by
    obtain ⟨base, number, isWhole, rfl⟩ := new.named
    refine ⟨world.names number, ?_, (isWhole.names_join_iff working _).mp (new.names _)⟩
    rw [unique]
    exact ⟨number, rfl⟩
  refine .inr ⟨place, works, new.free, ?_, fun archive success => ?_⟩
  · have prepared : Machine.Touches (· = place) (fun _ => False) world.machine made.machine :=
      new.touches
    exact .trans (prepared.spares fun location same => .inr (same ▸ new.free))
      (worked.weaken fun location => .imp (new.contains_iff _ _).mp fun changed =>
        changed.mono fun exchange member => by simp [member])
  · obtain ⟨root, leads, gone⟩ := cleared archive success
    rwa [leads.eq (new.names _)] at gone

/-- A package build in a directory that others share works where the configured name leads. -/
theorem ends_buildPackage_spares_fixed (clean : mishap.IsClean) (builder : Builder) (job : Job)
    (manifest : String) (fixed : builder.settings.toolchain.workMode = .fixed)
    (ended : Ends mishap world (builder.buildPackage job manifest) trace result after) :
    ((∃ failure, result = .error failure) ∧
        Spares (fun _ => False) world.machine after.machine) ∨
      ∃ place, builder.WorksIn job world place ∧
        SparesOutside place trace world.machine after.machine result := by
  rcases ends_buildPackage builder job manifest ended with ⟨failure, rfl, making⟩ |
    ⟨first, inside, rest, work, made, outcome, built, rfl, making, building, ends⟩
  all_goals rw [fixed] at making
  · exact .inl ⟨⟨failure, rfl⟩, (ends_makeFixed clean _ _ making).2.spares fun _ => .inl⟩
  obtain ⟨⟨_, ⟨⟩⟩ | same, grown⟩ := ends_makeFixed clean _ _ making
  cases same
  obtain ⟨worked, cleared⟩ := concludes_spares clean builder job manifest _ building ends
  have grew (lost : Location → Prop) : Spares lost world.machine made.machine :=
    grown.spares fun _ => False.elim
  by_cases somewhere : ∃ place, (job.workRoot.child builder.settings.toolchain.workName).Names
      world.machine.working place
  · obtain ⟨place, names⟩ := somewhere
    refine .inr ⟨place, ⟨"", ?_, ?_⟩, ?_, fun archive success => ?_⟩
    · rw [fixed]
    · rwa [OsText.append_empty]
    · refine (grew _).trans
        (worked.weaken fun location => .imp (fun ⟨root, leads, within⟩ => ?_) fun changed => ?_)
      · rwa [(leads.of_stays grown.stays).eq names] at within
      · exact changed.mono fun exchange member => by simp [member]
    · obtain ⟨root, leads, gone⟩ := cleared archive success
      rwa [(leads.of_stays grown.stays).eq names] at gone
  · have nowhere (place : Location) :
        ¬ (job.workRoot.child builder.settings.toolchain.workName).Names made.machine.working
          place := fun names => somewhere ⟨place, names.of_stays grown.stays⟩
    obtain ⟨-, -, ⟨place, names⟩ | ⟨⟨failure, rfl⟩, nothing⟩⟩ :=
      ends_buildIn_spares clean builder job manifest _ building
    · exact absurd names (nowhere place)
    obtain ⟨rfl, gaveUp⟩ := ends
    obtain ⟨-, rfl⟩ := runs_givenUp (.fixed _) gaveUp
    exact .inl ⟨⟨failure, rfl⟩, (grew _).trans nothing⟩

theorem ends_buildPackage_spares (clean : mishap.IsClean)
    (working : ∀ here, world.machine.working = some here → IsPlainLocation here)
    (builder : Builder) (job : Job) (manifest : String)
    (ended : Ends mishap world (builder.buildPackage job manifest) trace result after) :
    ((∃ failure, result = .error failure) ∧
        Spares (fun _ => False) world.machine after.machine) ∨
      ∃ place, builder.WorksIn job world place ∧
        (builder.settings.toolchain.workMode = .unique →
          world.machine.disk.get? place = none) ∧
        SparesOutside place trace world.machine after.machine result := by
  cases mode : builder.settings.toolchain.workMode with
  | unique =>
    refine (ends_buildPackage_spares_unique clean working builder job manifest mode ended).imp_right
      fun ⟨place, works, free, outside⟩ => ?_
    exact ⟨place, works, fun _ => free, outside⟩
  | fixed =>
    refine (ends_buildPackage_spares_fixed clean builder job manifest mode ended).imp_right
      fun ⟨place, works, outside⟩ => ?_
    exact ⟨place, works, nofun, outside⟩

end World

theorem destination_noParent (start : Location) (noParent : [dotByte, dotByte] ∉ parts) :
    destination start parts = start ++ (parts.filter leadsOn).map OsText.mk := by
  induction parts generalizing start with
  | nil => simp [destination]
  | cons piece rest ih =>
    obtain ⟨notParent, later⟩ := not_or.mp (List.mem_cons.not.mp noParent)
    rw [destination, List.foldl_cons, ← destination, ih _ later]
    cases leads : leadsOn piece with
    | false =>
      rw [nextLocation_of_not_leadsOn start leads, List.filter_cons_of_neg (by simp [leads])]
    | true =>
      have named := leads
      rw [leadsOn, Bool.and_eq_true, decide_eq_true_iff, decide_eq_true_iff] at named
      rw [nextLocation_plain start named.1 named.2 (Ne.symm notParent),
        List.filter_cons_of_pos leads, List.map_cons, List.append_assoc, List.singleton_append]

/-- A fixed name that never leads up leads from the directory of the job to that directory itself
or to a place below it. -/
theorem Builder.WorksIn.below {builder : Builder} {job : Job} {world : World}
    (works : builder.WorksIn job world place)
    (fixed : builder.settings.toolchain.workMode = .fixed)
    (relative : (Path.mk builder.settings.toolchain.workName).isAbsolute = false)
    (noParent : [dotByte, dotByte] ∉ pieces (builder.settings.toolchain.workName : OsText).toList)
    (names : job.workRoot.Names world.machine.working root) :
    place = root ++ ((pieces (builder.settings.toolchain.workName : OsText).toList).filter
      leadsOn).map OsText.mk := by
  obtain ⟨ending, ends, joined⟩ := works
  rw [fixed] at ends
  rw [show ending = "" from ends, OsText.append_empty, Path.child,
    Path.names_join_relative _ relative] at joined
  obtain ⟨other, leads, rfl⟩ := joined
  obtain rfl := leads.eq names
  exact destination_noParent _ noParent

/-- What is expected of a build that works below the directory of its job: the directory stays,
and so does whatever stands outside of the place. -/
structure ContainsWork (root place : Location) (trace : List Exchange) (before after : Machine) :
    Prop where
  root : ¬ ChangedFromAfar trace root → before.disk.get? root = some .directory →
    after.disk.get? root = some .directory
  others : before.Spares (fun location => place <+: location ∨ ChangedFromAfar trace location)
    after

/-- What the configured name decides: a fixed one that never leads up keeps a build below the
directory of its job if there is a name in it, and otherwise has it work in that directory, of
which nothing is left after a success. -/
structure NameDecides (name : OsText) (root place : Location) (trace : List Exchange)
    (before after : Machine) (result : Except Failure Path) : Prop where
  contained : (∃ piece ∈ pieces name.toList, leadsOn piece = true) →
    StrictlyBelow root place ∧ ContainsWork root place trace before after
  lost : (∀ piece ∈ pieces name.toList, leadsOn piece = false) → place = root ∧
    ∀ archive, result = .ok archive → ∀ location entry, StrictlyBelow root location →
      before.disk.get? location = some entry → after.disk.get? location = none

/-- A package build without a directory leaves all that stood. One with a directory loses nothing
outside of it and, if it succeeds, everything inside it. If it works strictly below the directory
of its job it keeps to that; for a fixed name that never leads up the name alone decides. -/
theorem package_work_contained {mishap : Mishap} {world after : World}
    {trace : List Exchange} (builder : Builder) (job : Job) (clean : mishap.IsClean)
    (working : ∀ here, world.machine.working = some here → IsPlainLocation here)
    (described : job.manifest ≠ none)
    (ended : World.Ends mishap world (builder.build job) trace result after) :
    ((∃ failure, result = .error failure) ∧
        world.machine.Spares (fun _ => False) after.machine) ∨
      ∃ place, builder.WorksIn job world place ∧
        world.machine.Spares
          (fun location => place <+: location ∨ ChangedFromAfar trace location) after.machine ∧
        (∀ archive, result = .ok archive → ∀ location, StrictlyBelow place location →
          after.machine.disk.get? location = none) ∧
        ∀ root, job.workRoot.Names world.machine.working root →
          (StrictlyBelow root place →
            ContainsWork root place trace world.machine after.machine) ∧
          (builder.settings.toolchain.workMode = .fixed →
            (Path.mk builder.settings.toolchain.workName).isAbsolute = false →
            [dotByte, dotByte] ∉ pieces (builder.settings.toolchain.workName : OsText).toList →
            NameDecides builder.settings.toolchain.workName root place trace world.machine
              after.machine result) := by
  obtain ⟨first, rest, events, rfl, -, ended⟩ := World.ends_build builder job ended
  obtain ⟨manifest, given⟩ := Option.ne_none_iff_exists'.mp described
  rw [given] at ended
  have workingToo : ∀ here, ({ world with events } : World).machine.working = some here →
      IsPlainLocation here := working
  rcases World.ends_buildPackage_spares clean workingToo builder job manifest ended with
    failed | ⟨place, works, -, kept⟩
  · exact .inl failed
  have outside := kept.spares.weaken fun location => Or.imp_right fun changed =>
    changed.mono fun exchange member => List.mem_append_right first member
  have contains (root : Location) (below : StrictlyBelow root place) :
      ContainsWork root place (first ++ rest) world.machine after.machine := by
    refine ⟨fun unchanged stands => outside.kept root _ ?_ stands, outside⟩
    rintro (above | changed)
    · exact below.2 (below.1.eq_of_length_le above.length_le)
    · exact unchanged changed
  refine .inr ⟨place, works, outside, kept.emptied, fun root names =>
    ⟨contains root, fun fixed relative noParent => ?_⟩⟩
  have leads := works.below fixed relative noParent names
  constructor
  case contained =>
    rintro ⟨piece, member, isName⟩
    have below : StrictlyBelow root place := by
      rw [leads]
      refine ⟨List.prefix_append _ _, fun same => ?_⟩
      have none := List.append_right_eq_self.mp same.symm
      rw [List.map_eq_nil_iff, List.filter_eq_nil_iff] at none
      exact none piece member isName
    exact ⟨below, contains root below⟩
  case lost =>
    intro nameless
    obtain rfl : place = root := by
      rw [leads, List.filter_eq_nil_iff.mpr fun piece member => by simp [nameless piece member],
        List.map_nil, List.append_nil]
    exact ⟨rfl, fun archive success location _ inside _ =>
      kept.emptied archive success location inside⟩

/-- A builder whose working directory has no name, so that it is the directory of the job. -/
def Builder.unnamed : Builder where
  settings := { Settings.small .fixed with
    toolchain := { (Settings.small .fixed).toolchain with workName := "" } }
  scratch := ⟨⟨"/t"⟩⟩

/-- A machine with a file in a directory below the working directory. -/
def Machine.keeping : Machine where
  disk := { entries := [(["w", "src", "keep"], .file .empty false), (["w", "src"], .directory),
    (["w"], .directory), (["t"], .directory)] }
  working := some ["w"]

/-- A unit with a dependency that is built in the directory below. -/
def Job.inside : Job where
  source := ""
  manifest := some ""
  extraArguments := []
  workRoot := ⟨"/w/src"⟩

/-- A package tool that writes its archive, on the machine with the file. -/
def World.keeping : World :=
  { World.small (ScriptedTool.archive .empty).tool with machine := .keeping }

/-- The build succeeds, and neither the directory of the job nor the file in it is left, although
the tool has touched neither and there is no link. -/
theorem Builder.unnamed_ends :
    ∃ archive trace after,
      World.Ends .refusals .keeping (Builder.unnamed.build .inside) trace (.ok archive) after ∧
      ∀ location ∈ ([["w", "src"], ["w", "src", "keep"]] : List Location),
        ¬ ChangedFromAfar trace location ∧ Machine.keeping.disk.get? location ≠ none ∧
          after.machine.disk.get? location = none := by
  have ends := World.runs_run .refusals .keeping (Builder.unnamed.build .inside).run
  have facts : (World.keeping.run (Builder.unnamed.build .inside).run).1.toBool = true ∧
      (∀ exchange ∈ World.keeping.record (Builder.unnamed.build .inside).run,
        exchange.IsStraight) ∧
      ∀ location ∈ ([["w", "src"], ["w", "src", "keep"]] : List Location),
        (∀ exchange ∈ World.keeping.record (Builder.unnamed.build .inside).run,
          exchange.request.invocation?.isSome →
            exchange.after.disk.get? location = exchange.before.disk.get? location) ∧
        Machine.keeping.disk.get? location ≠ none ∧
        (World.keeping.run (Builder.unnamed.build .inside).run).2.machine.disk.get? location =
          none := by
    decide +kernel
  rcases ran : World.keeping.run (Builder.unnamed.build .inside).run with ⟨result, after⟩
  rw [ran] at ends facts
  obtain ⟨success, straight, lost⟩ := facts
  cases result with
  | error failure => cases success
  | ok archive =>
    refine ⟨archive, _, after, ends, fun location member => ?_⟩
    obtain ⟨untouched, stood, gone⟩ := lost location member
    refine ⟨?_, stood, gone⟩
    rintro (⟨invocation, answered, before, left, called, differs⟩ | put)
    · exact differs (untouched _ called rfl)
    · exact put.not_straight straight

theorem package_work_not_contained :
    ∃ archive trace after,
      World.Ends .refusals .keeping (Builder.unnamed.build .inside) trace (.ok archive) after ∧
      (∀ place, ¬ ContainsWork ["w", "src"] place trace .keeping after.machine) ∧
      Machine.keeping.disk.get? ["w", "src", "keep"] ≠ none ∧
      after.machine.disk.get? ["w", "src", "keep"] = none := by
  obtain ⟨archive, trace, after, ends, lost⟩ := Builder.unnamed_ends
  obtain ⟨untouched, -, gone⟩ := lost ["w", "src"] (by simp)
  refine ⟨archive, trace, after, ends, fun place contains => ?_, (lost _ (by simp)).2⟩
  have stands := contains.root untouched (by decide +kernel)
  rw [gone] at stands
  cases stands

/-- The theorem on that build, whose name leads nowhere. -/
theorem package_work_contained_unnamed :
    ∃ archive trace after place,
      World.Ends .refusals .keeping (Builder.unnamed.build .inside) trace (.ok archive) after ∧
      Builder.unnamed.WorksIn .inside .keeping place ∧
      NameDecides "" ["w", "src"] place trace .keeping after.machine (.ok archive) ∧
      ¬ StrictlyBelow ["w", "src"] place := by
  obtain ⟨archive, trace, after, ends, -⟩ := Builder.unnamed_ends
  have working : ∀ here, World.keeping.machine.working = some here → IsPlainLocation here := by
    rintro here ⟨⟩
    decide +kernel
  rcases package_work_contained Builder.unnamed .inside Mishap.isClean_refusals working nofun
    ends with ⟨⟨failure, ⟨⟩⟩, -⟩ | ⟨place, works, -, -, contained⟩
  have names : Job.inside.workRoot.Names World.keeping.machine.working ["w", "src"] :=
    (Path.names_of_absolute (by decide +kernel)).mpr (by decide +kernel)
  have decides := (contained _ names).2 rfl (by decide +kernel) (by decide +kernel)
  refine ⟨archive, trace, after, place, ends, works, decides, fun below => below.2 ?_⟩
  exact (decides.lost (by decide +kernel)).1.symm

end FragmentBuild
