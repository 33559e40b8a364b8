import FragmentBuild.Proofs.ShelfSteps

/-! Shelves of temporary things in use. Whatever is done with them, and whatever others do
meanwhile with what is on them or beside it, nothing on a shelf is in the way of anything else,
nothing that was handed on is touched again, and once a shelf is cleared only what is to last is
left. -/
namespace FragmentBuild

/-- A machine of which temporary files can be made use: the working directory and the mounted file
systems stand, and the names given out are proper ones. -/
structure World.IsReady (world : World) : Prop where
  tree : world.machine.disk.IsTree
  working : ∀ here, world.machine.working = some here →
    IsPlainLocation here ∧ world.machine.disk.get? here = some .directory
  mounts : ∀ mount ∈ world.machine.disk.mounts,
    world.machine.disk.get? mount = some .directory
  names : ∀ number, IsGivenName (world.names number)

theorem Task.requestAll_append (first second : List Request) :
    requestAll (first ++ second) = requestAll first >>= fun _ => requestAll second := by
  induction first with
  | nil => rfl
  | cons request rest ih =>
    simp only [List.cons_append, requestAll, ih, bind_assoc]

namespace Shelf

/-- What is to last of a disk after all that has happened. -/
def lastingAfter (disk : Disk) (log : List Happening) : Disk := log.foldl Happening.lasting disk

theorem lastingAfter_concat (disk : Disk) (log : List Happening) (happening : Happening) :
    lastingAfter disk (log ++ [happening]) = happening.lasting (lastingAfter disk log) := by
  simp [lastingAfter]

/-- How a shelf may be used. Its steps may fail, but no directory is ever on the way to anything
else that is held, not even to what replaces it in its slot. Others do what they like with what is
in the slots, as long as it stands, and make things elsewhere. -/
inductive History (mishap : Mishap) (scratch : Scratch) (start : World) :
    List Happening → World → Shelf → Prop
  | start : History mishap scratch start [] start { scratch }
  | performed : History mishap scratch start log world shelf →
      step.Permitted shelf log world.machine →
      World.Runs mishap world (shelf.perform step) trace (reply, next) after →
      next.Untangled scratch.root start.machine.working → step.IsOutside shelf reply →
      History mishap scratch start (log ++ [.performed step reply world.machine after.machine])
        after next
  | used {held : Held} : History mishap scratch start log world shelf →
      shelf.get? slot = some held →
      Disk.ChangesOnly held.holding.Covers (fun _ => False) world.machine.disk disk →
      held.holding.Stands disk → disk.IsTree → disk.mounts = world.machine.disk.mounts →
      History mishap scratch start (log ++ [.used slot])
        { world with machine := world.machine.withDisk disk } shelf
  | added : History mishap scratch start log world shelf →
      world.machine.disk.get? location = none →
      world.machine.disk.get? location.dropLast = some .directory →
      (∀ work, shelf.Holds (.directory work) → ¬ work.path.place <+: location) →
      History mishap scratch start (log ++ [.added location entry])
        { world with
          machine := world.machine.withDisk (world.machine.disk.put location entry) } shelf

/-- What is true of a shelf at any time. -/
structure Sound (scratch : Scratch) (start : World) (log : List Happening) (world : World)
    (shelf : Shelf) : Prop where
  names : world.names = start.names
  working : world.machine.working = start.machine.working
  neat : shelf.IsNeat
  tidy : Tidy scratch.root (lastingAfter start.machine.disk log) shelf.Holds world.machine
  fresh : ∀ step path before after, Happening.performed step (.path path) before after ∈ log →
    step.Makes → ∀ found, before.find path ≠ .ok found
  kept : ∀ step path before after, Happening.performed step (.path path) before after ∈ log →
    step.HandsOn → ∃ contents executable,
      after.find path = .ok (path.place, .file contents executable) ∧
      LastingFile scratch.root (lastingAfter start.machine.disk log) world.machine path contents
        executable
  scratch : shelf.scratch = scratch

variable {mishap : Mishap} {scratch : Scratch} {start world after : World} {log : List Happening}
  {shelf next : Shelf} {slot : String} {held : Held} {step : Step} {reply : Reply}
  {trace : List Exchange}

theorem sound_start (ready : start.IsReady) (scratch : Scratch) :
    Sound scratch start [] start { scratch } := by
  have nothing (held : Held) : ¬ Shelf.Holds { scratch } held := nofun
  refine ⟨rfl, rfl, ⟨.nil, nofun⟩, ?_, nofun, nofun, rfl⟩
  exact ⟨ready.tree, ready.working, ready.mounts, fun held lives => absurd lives (nothing held),
    fun held lives => absurd lives (nothing held), fun one _ lives => absurd lives (nothing one),
    fun _ _ lives => absurd lives (nothing _), fun held _ lives => absurd lives (nothing held),
    fun _ _ => .inl rfl⟩

/-- What was handed on stays, as long as it is to last. -/
theorem Sound.keeps {machine : Machine} (sound : Sound scratch start log world shelf)
    (steady : Steady scratch.root world.machine machine)
    (tidy : Tidy scratch.root later live machine)
    (lasts : ∀ step path before left, .performed step (.path path) before left ∈ log →
      step.HandsOn → ∀ entry,
        (lastingAfter start.machine.disk log).get? path.place = some entry →
        later.get? path.place = some entry)
    (member : .performed step (.path path) before left ∈ log) (hands : step.HandsOn) :
    ∃ contents executable, left.find path = .ok (path.place, .file contents executable) ∧
      LastingFile scratch.root later machine path contents executable := by
  obtain ⟨contents, executable, found, file⟩ := sound.kept step path before left member hands
  exact ⟨contents, executable, found,
    file.again steady tidy (lasts step path before left member hands _ file.lasts)⟩

theorem Sound.performed (clean : mishap.IsClean) (removes : mishap.SparesRemovals)
    (ready : start.IsReady) (sound : Sound scratch start log world shelf)
    (permitted : step.Permitted shelf log world.machine)
    (ran : World.Runs mishap world (shelf.perform step) trace (reply, next) after)
    (untangled : next.Untangled scratch.root start.machine.working)
    (outside : step.IsOutside shelf reply) :
    Sound scratch start (log ++ [.performed step reply world.machine after.machine]) after
      next := by
  obtain rfl := sound.scratch
  have names (number : Nat) : IsGivenName (world.names number) := by
    rw [sound.names]
    exact ready.names number
  have performance := performance_perform clean removes names sound.neat sound.tidy permitted ran
    (sound.working.symm ▸ untangled) outside
  have lasting := lastingAfter_concat start.machine.disk log
    (.performed step reply world.machine after.machine)
  refine ⟨?_, ?_, performance.neat, lasting ▸ performance.tidy, ?_, ?_, performance.scratch⟩
  · exact (World.Runs.fixed ran).1.trans sound.names
  · exact performance.steady.working.trans sound.working
  · intro earlier path before left member makes
    rcases List.mem_append.mp member with past | last
    · exact sound.fresh earlier path before left past makes
    · cases List.mem_singleton.mp last
      exact performance.fresh path rfl makes
  · intro earlier path before left member hands
    rw [lasting]
    rcases List.mem_append.mp member with past | last
    · refine sound.keeps performance.steady performance.tidy
        (fun other path' before' left' there handsToo entry stands => ?_) past hands
      rcases performance.kept _ _ stands with same | ⟨built, rfl, names⟩
      · exact same
      · exact absurd rfl ((permitted.2 _ names).2 other path' before' left' there handsToo)
    · cases List.mem_singleton.mp last
      obtain ⟨contents, executable, file⟩ := performance.handed path rfl hands
      exact ⟨contents, executable, file.found, file⟩

theorem Sound.idle {machine : Machine} {happening : Happening}
    (sound : Sound scratch start log world shelf)
    (steady : Steady scratch.root world.machine machine)
    (tidy : Tidy scratch.root (happening.lasting (lastingAfter start.machine.disk log)) shelf.Holds
      machine)
    (stays : ∀ location entry, (lastingAfter start.machine.disk log).get? location = some entry →
      (happening.lasting (lastingAfter start.machine.disk log)).get? location = some entry)
    (noStep : ∀ step reply before left, happening ≠ .performed step reply before left) :
    Sound scratch start (log ++ [happening]) { world with machine } shelf := by
  have past {step : Step} {path : Path} {before left : Machine}
      (member : .performed step (.path path) before left ∈ log ++ [happening]) :
      .performed step (.path path) before left ∈ log :=
    (List.mem_append.mp member).resolve_right fun last =>
      noStep _ _ _ _ (List.mem_singleton.mp last).symm
  have lasting := lastingAfter_concat start.machine.disk log happening
  refine ⟨sound.names, steady.working.trans sound.working, sound.neat, lasting ▸ tidy, ?_, ?_,
    sound.scratch⟩
  · intro step path before left member makes
    exact sound.fresh step path before left (past member) makes
  · intro step path before left member hands
    rw [lasting]
    exact sound.keeps steady tidy (fun _ _ _ _ _ _ entry => stays _ entry) (past member) hands

/-- Whatever has happened to a shelf, it is sound. -/
theorem History.sound (clean : mishap.IsClean) (removes : mishap.SparesRemovals)
    (ready : start.IsReady) (history : History mishap scratch start log world shelf) :
    Sound scratch start log world shelf := by
  induction history with
  | start => exact sound_start ready scratch
  | performed history permitted ran untangled outside sound =>
    exact sound.performed clean removes ready permitted ran untangled outside
  | used history found changes stands tree mounts sound =>
    obtain ⟨tidy, steady⟩ := sound.tidy.use ⟨_, found⟩ changes stands tree mounts
    exact sound.idle steady tidy (fun _ _ => id) fun _ _ _ _ => Happening.noConfusion
  | @added _ _ shelf location entry history free parent outside sound =>
    have uncovered (held : Held) (lives : shelf.Holds held) : ¬ held.holding.Covers location := by
      intro covers
      cases held with
      | directory work => exact outside work lives covers
      | source path | archive path =>
        obtain rfl : location = path.place := covers
        exact (sound.tidy.owned _ lives).occupied free
    obtain ⟨tidy, steady⟩ := sound.tidy.add free parent entry uncovered
    refine sound.idle steady tidy (fun other thing stands => ?_)
      fun _ _ _ _ => Happening.noConfusion
    refine (Disk.get?_put_of_ne _ _ ?_).trans stands
    rintro rfl
    cases (sound.tidy.free free).symm.trans stands

theorem mem_of_get? (found : shelf.get? slot = some held) : (slot, held) ∈ shelf.held := by
  obtain ⟨before, later, shape, -⟩ := List.lookup_eq_some_iff.mp found
  rw [shape]
  exact List.mem_append_right _ (List.mem_cons_self ..)

theorem IsNeat.get?_eq_some_iff (neat : shelf.IsNeat) :
    shelf.get? slot = some held ↔ (slot, held) ∈ shelf.held := by
  refine ⟨mem_of_get?, fun member => List.lookup_eq_some_iff.mpr ?_⟩
  obtain ⟨before, later, shape⟩ := List.append_of_mem member
  refine ⟨before, later, shape, fun entry earlier => ?_⟩
  have slots := neat.slots
  rw [shape, List.map_append, List.map_cons, List.nodup_append] at slots
  exact bne_iff_ne.mpr
    (slots.2.2 entry.1 (List.mem_map_of_mem earlier) slot (List.mem_cons_self ..)).symm

theorem IsNeat.holds_eq (neat : shelf.IsNeat) :
    shelf.Holds = fun held => held ∈ shelf.held.map Prod.snd := by
  funext held
  simp [Holds, neat.get?_eq_some_iff]

theorem IsNeat.nodup_held (neat : shelf.IsNeat) : (shelf.held.map Prod.snd).Nodup := by
  refine List.Nodup.map_on (fun one member other memberToo same => ?_) neat.slots.of_map
  refine Prod.ext (neat.once one.1 other.1 one.2 (neat.get?_eq_some_iff.mpr member) ?_) same
  exact neat.get?_eq_some_iff.mpr (same ▸ memberToo)

theorem tidy_emptied {entries : List (String × Held)}
    (tidy : Tidy root lasting (fun held => held ∈ entries.map Prod.snd) world.machine)
    (once : (entries.map Prod.snd).Nodup)
    (ran : World.Runs mishap world (Task.requestAll (entries.flatMap (·.2.givenUp))) trace value
      after) : Tidy root lasting (fun _ => False) after.machine ∧
        Steady root world.machine after.machine := by
  induction entries generalizing world trace with
  | nil =>
    obtain ⟨-, -, rfl⟩ := World.runs_pure ran
    refine ⟨?_, .refl _ _⟩
    simpa using tidy
  | cons entry entries ih =>
    rw [List.map_cons, List.nodup_cons] at once
    rw [List.flatMap_cons, Task.requestAll_append] at ran
    obtain ⟨first, rest, ⟨⟩, middle, rfl, given, later⟩ := World.Runs.bind ran
    obtain ⟨tidyToo, steady⟩ := World.tidy_discarded tidy (List.mem_cons_self ..) given
    have remaining : (fun other => other ∈ (entry :: entries).map Prod.snd ∧ other ≠ entry.2) =
        fun other => other ∈ entries.map Prod.snd := by
      funext other
      refine propext ⟨fun lives => ?_, fun member => ⟨List.mem_cons_of_mem _ member, ?_⟩⟩
      · exact (List.mem_cons.mp lives.1).resolve_left lives.2
      · rintro rfl
        exact once.1 member
    rw [remaining] at tidyToo
    obtain ⟨tidyLast, steadyToo⟩ := ih tidyToo once.2 later
    exact ⟨tidyLast, steady.trans steadyToo⟩

theorem Sound.cleared (sound : Sound scratch start log world shelf)
    (ran : World.Runs mishap world shelf.clear trace value after) :
    Tidy scratch.root (lastingAfter start.machine.disk log) (fun _ => False) after.machine ∧
      Steady scratch.root world.machine after.machine :=
  tidy_emptied (sound.neat.holds_eq ▸ sound.tidy) sound.neat.nodup_held ran

/-- Whether a path does not lead into what is held. -/
def Held.isClearOf (path : Path) : Held → Bool
  | .directory work => path.way.all fun location => !work.path.place.isPrefixOf location
  | _ => true

/-- Whether a shelf is untangled, where the temporary files have an absolute path. -/
def isUntangled (root : Path) (shelf : Shelf) : Bool :=
  shelf.held.all fun one => Held.isClearOf root one.2 &&
    shelf.held.all fun other => one.1 == other.1 || Held.isClearOf other.2.path one.2

theorem not_leadsInto_of_isClearOf (checked : Held.isClearOf path (.directory work) = true) :
    ¬ path.LeadsInto work.path := by
  rintro ⟨location, member, inside⟩
  have apart := List.all_eq_true.mp checked location member
  rw [List.isPrefixOf_iff_prefix.mpr inside] at apart
  cases apart

theorem untangled_of_isUntangled (absolute : root.isAbsolute = true)
    (checked : shelf.isUntangled root = true) : shelf.Untangled root working := by
  constructor
  · intro slot work whole found isWhole
    have entry := List.all_eq_true.mp checked _ (mem_of_get? found)
    rw [Bool.and_eq_true] at entry
    have same : whole = root := by
      rcases isWhole.2 with same | ⟨here, -, same⟩
      · exact same
      · rw [same, Path.join, if_pos absolute]
    rw [same]
    exact not_leadsInto_of_isClearOf entry.1
  · intro slot other work held found foundToo apart
    have entry := List.all_eq_true.mp checked _ (mem_of_get? found)
    rw [Bool.and_eq_true] at entry
    have pair := List.all_eq_true.mp entry.2 _ (mem_of_get? foundToo)
    rw [Bool.or_eq_true] at pair
    rcases pair with same | clear
    · exact absurd (beq_iff_eq.mp same) apart
    · exact not_leadsInto_of_isClearOf clear

/-- Whether what happened gave somebody a file that was at a location then. -/
def Happening.gave (location : Location) : Happening → Bool
  | .performed (.handOff _) (.path path) _ _ | .performed (.relocate _) (.path path) _ _ =>
    decide (path.place = location)
  | _ => false

/-- Whether a step is permitted, where a path that is relocated leads somewhere. -/
def Step.isPermitted (shelf : Shelf) (log : List Happening) (machine : Machine) : Step → Bool
  | .directory _ _ mode _ => mode == .unique
  | .handOff slot =>
    shelf.held.all fun entry => entry.1 != slot || decide (entry.2.holding = .file entry.2.path)
  | .relocate built =>
    match machine.locate built with
    | .ok place => !decide (machine.IsLink built) &&
        shelf.held.all (fun entry => decide (entry.2.path.place ≠ place)) &&
        log.all fun happening => !happening.gave place
    | .error _ => false
  | _ => true

theorem permitted_of_isPermitted {machine : Machine}
    (checked : step.isPermitted shelf log machine = true) :
    step.Permitted shelf log machine := by
  cases step with
  | directory slot parent mode name => exact beq_iff_eq.mp checked
  | handOff slot =>
    intro work found
    have entry := List.all_eq_true.mp checked _ (mem_of_get? found)
    simp [Held.holding] at entry
  | relocate built =>
    rw [Step.isPermitted] at checked
    split at checked
    · rename_i there leads
      rw [Bool.and_eq_true, Bool.and_eq_true] at checked
      refine ⟨by simpa using checked.1.1, fun place names => ?_⟩
      obtain rfl : place = there := names.eq (Path.names_of_locate leads)
      refine ⟨?_, ?_⟩
      · rintro held ⟨slot, found⟩
        have apart := List.all_eq_true.mp checked.1.2 _ (mem_of_get? found)
        exact of_decide_eq_true apart
      · intro step path before left member hands
        have elsewhere := List.all_eq_true.mp checked.2 _ member
        cases step <;> cases hands
        all_goals simpa [Happening.gave] using elsewhere
    · cases checked
  | source | archive | remove | drop => trivial

@[irreducible] def taken (world : World) (shelf : Shelf) (step : Step) : World × Shelf :=
  ((world.run (shelf.perform step)).2, (world.run (shelf.perform step)).1.2)

theorem History.taken (history : History mishap scratch start log world shelf) (step : Step)
    (absolute : scratch.root.isAbsolute = true)
    (permitted : step.isPermitted shelf log world.machine = true)
    (untangled : (shelf.taken world step).2.isUntangled scratch.root = true)
    (outside : step.IsOutside shelf (world.run (shelf.perform step)).1.1) :
    History mishap scratch start
      (log ++ [.performed step (world.run (shelf.perform step)).1.1 world.machine
        (shelf.taken world step).1.machine]) (shelf.taken world step).1
      (shelf.taken world step).2 := by
  unfold Shelf.taken at untangled ⊢
  exact .performed history (permitted_of_isPermitted permitted)
    (World.runs_run mishap world (shelf.perform step))
    (untangled_of_isUntangled absolute untangled) outside

/-- All that was made is accounted for: a path that was given out was free before; what is on the
shelf exists, at different places; what was handed on is as it was then, and is to last; and
giving up what is on the shelf leaves exactly what is to last, but for directories on the way to
the temporary files. -/
structure Accounted (mishap : Mishap) (scratch : Scratch) (start : World) (log : List Happening)
    (world : World) (shelf : Shelf) : Prop where
  fresh : ∀ step path before left, .performed step (.path path) before left ∈ log → step.Makes →
    ∀ found, before.find path ≠ .ok found
  present : ∀ slot held, shelf.get? slot = some held →
    ∃ entry, world.machine.find held.path = .ok (held.path.place, entry)
  distinct : ∀ slot other held thing, shelf.get? slot = some held →
    shelf.get? other = some thing → slot ≠ other → held.path.place ≠ thing.path.place
  handed : ∀ step path before left, .performed step (.path path) before left ∈ log →
    step.HandsOn → ∃ file, left.find path = .ok (path.place, file) ∧
      world.machine.find path = .ok (path.place, file) ∧
      (lastingAfter start.machine.disk log).get? path.place = some file
  cleared : ∀ trace after, World.Runs mishap world shelf.clear trace () after → ∀ location,
    after.machine.disk.get? location = (lastingAfter start.machine.disk log).get? location ∨
      scratch.root.OnWay start.machine.working location ∧
        (lastingAfter start.machine.disk log).get? location = none ∧
        after.machine.disk.get? location = some .directory

/-- However a shelf is used, temporary files neither leak nor clobber. -/
theorem temporary_files_neither_leak_nor_clobber (clean : mishap.IsClean)
    (removes : mishap.SparesRemovals) (ready : start.IsReady)
    (history : History mishap scratch start log world shelf) :
    Accounted mishap scratch start log world shelf := by
  have sound := history.sound clean removes ready
  refine ⟨sound.fresh, fun slot held found => (sound.tidy.owned held ⟨slot, found⟩).found, ?_, ?_,
    ?_⟩
  · intro slot other held thing found there apart same
    have differ : held ≠ thing := by
      rintro rfl
      exact apart (sound.neat.once slot other held found there)
    refine sound.tidy.apart held thing ⟨slot, found⟩ ⟨other, there⟩ differ _
      thing.path.place_mem_way ?_
    rw [← same, ← held.place_holding]
    exact held.holding.covers_place
  · intro step path before left member hands
    obtain ⟨contents, executable, found, file⟩ := sound.kept step path before left member hands
    exact ⟨_, found, file.found, file.lasts⟩
  · intro trace after ran location
    obtain ⟨tidy, steady⟩ := sound.cleared ran
    have agrees := tidy.agrees location fun _ => False.elim
    rw [steady.working, sound.working] at agrees
    exact agrees

/-- A small machine on which somebody else has put an archive, and a shelf that is used there. -/
def smallUse (steps : List Step) : World × Shelf :=
  steps.foldl (fun state => state.2.taken state.1) ({ World.small ScriptedTool.idle.tool with
    machine := Machine.small.withDisk
      (Machine.small.disk.put ["w", "lib.a"] (.file "A".toUTF8 false)) }, { scratch := ⟨⟨"/t"⟩⟩ })

theorem isReady_small (tool : Tool) : (World.small tool).IsReady where
  tree := (World.isProper_small tool).tree
  working here stands := ⟨(World.isProper_small tool).working here stands, by cases stands; rfl⟩
  mounts := nofun
  names := isGivenName_countedName

/-- A directory is kept, one file is handed on, and the archive is relocated. -/
def smallSteps : List Step :=
  [.directory "d" ⟨"/w"⟩ .unique "d", .archive "a", .handOff "a", .relocate ⟨"lib.a"⟩]

theorem temporary_files_neither_leak_nor_clobber_small :
    (smallUse smallSteps).2.held = [("d", .directory (.unique ⟨"/w/daaaaaa"⟩))] ∧
      (smallUse smallSteps).1.machine.find ⟨"/t/graft-aaaaab.a"⟩ =
        .ok (["t", "graft-aaaaab.a"], .file .empty false) ∧
      (smallUse smallSteps).1.machine.find ⟨"/t/graft-aaaaac.a"⟩ =
        .ok (["t", "graft-aaaaac.a"], .file "A".toUTF8 false) ∧
      (smallUse smallSteps).1.machine.disk.get? ["w", "lib.a"] = none ∧
      ∃ log, History (fun _ _ _ => False) ⟨⟨"/t"⟩⟩ (World.small ScriptedTool.idle.tool) log
          (smallUse smallSteps).1 (smallUse smallSteps).2 ∧
        Accounted (fun _ _ _ => False) ⟨⟨"/t"⟩⟩ (World.small ScriptedTool.idle.tool) log
          (smallUse smallSteps).1 (smallUse smallSteps).2 := by
  refine ⟨by decide +kernel, by decide +kernel, by decide +kernel, by decide +kernel, ?_⟩
  have begun : History (fun _ _ _ => False) ⟨⟨"/t"⟩⟩ (World.small ScriptedTool.idle.tool) _
      (smallUse []).1 (smallUse []).2 :=
    .added .start (by decide +kernel) (by decide +kernel) nofun
  have placed := begun.taken (.directory "d" ⟨"/w"⟩ .unique "d") (by decide +kernel)
    (by decide +kernel) (by decide +kernel) nofun
  have archived := placed.taken (.archive "a") (by decide +kernel) (by decide +kernel)
    (by decide +kernel) trivial
  have handed := archived.taken (.handOff "a") (by decide +kernel) (by decide +kernel)
    (by decide +kernel) trivial
  have relocated := handed.taken (.relocate ⟨"lib.a"⟩) (by decide +kernel) (by decide +kernel)
    (by decide +kernel) trivial
  exact ⟨_, relocated, temporary_files_neither_leak_nor_clobber (fun _ _ _ => False.elim)
    (fun _ _ _ => id) (isReady_small _) relocated⟩

/-- Two things that a shelf does not see to. A directory that was made only to come back from it
on the way to the temporary files stays, though it is not where they are. And a directory takes
with it what is to replace it in its slot, if the way there leads through it: that then does not
exist where the shelf has it, and nobody ever removes it. -/
theorem shelf_leaves_the_way_and_loses_what_replaces :
    (∃ log world shelf, History Mishap.refusals ⟨⟨"/w/a/../s"⟩⟩
        (World.small ScriptedTool.idle.tool) log world shelf ∧
      shelf.held = [] ∧ (Path.mk "/w/a/../s").place = (["w", "s"] : Location) ∧
      (lastingAfter Machine.small.disk log).get? ["w", "a"] = none ∧
      world.machine.disk.get? ["w", "a"] = some .directory) ∧
    (let placed := (World.small ScriptedTool.idle.tool).run
        (perform { scratch := ⟨⟨"/t"⟩⟩ } (.directory "s" ⟨"/w"⟩ .unique "d"))
      let replaced := placed.2.run
        (placed.1.2.perform (.directory "s" ⟨"/w/daaaaaa/.."⟩ .unique "e"))
      let cleared := replaced.2.run replaced.1.2.clear
      placed.1.1 = .path ⟨"/w/daaaaaa"⟩ ∧
      replaced.1.2.held = [("s", .directory (.unique ⟨"/w/daaaaaa/../eaaaaab"⟩))] ∧
      replaced.2.machine.find ⟨"/w/daaaaaa/../eaaaaab"⟩ = .error .notFound ∧
      cleared.2.machine.disk.get? ["w", "eaaaaab"] = some .directory) := by
  refine ⟨?_, by decide +kernel⟩
  have begun : History .refusals ⟨⟨"/w/a/../s"⟩⟩ (World.small ScriptedTool.idle.tool) [] _ _ :=
    .start
  have archived := begun.taken (.archive "s") (by decide +kernel) rfl (by decide +kernel) trivial
  have dropped := archived.taken (.drop "s") (by decide +kernel) rfl (by decide +kernel) trivial
  refine ⟨_, _, _, dropped, ?_⟩
  decide +kernel

end Shelf

end FragmentBuild
