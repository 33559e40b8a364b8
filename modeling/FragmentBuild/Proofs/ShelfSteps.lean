import FragmentBuild.Proofs.DistinctKeys
import FragmentBuild.Proofs.TidyDisks
import FragmentBuild.Proofs.WorkEndings

/-! What one step makes of a shelf of temporary things: of what is held, of what is handed on, and
of the disk on which all of it stands. -/
namespace FragmentBuild

def Mishap.SparesRemovals (mishap : Mishap) : Prop :=
  ∀ path before after, ¬ mishap (.removeTree path) before after

namespace World

open Machine (Touches)

variable {mishap : Mishap} {world after : World} {trace : List Exchange} {root : Path}
  {lasting : Disk} {live : Held → Prop}

theorem tidy_removed (tidy : Tidy root lasting live world.machine)
    (lives : live (.directory work))
    (left : after.machine = world.machine.withDisk
      (world.machine.disk.removeTree world.machine.working work.path).2) :
    Tidy root lasting (fun other => live other ∧ other ≠ .directory work) after.machine ∧
      Steady root world.machine after.machine := by
  have owned := tidy.owned _ lives
  obtain ⟨entry, found⟩ := owned.found
  have unused := tidy.unused _ _ lives (List.prefix_refl _ : (Holding.tree work.path).Covers _)
  have folder : world.machine.disk.get? work.path.place = some .directory := owned.stands
  obtain rfl : entry = .directory :=
    Option.some.inj (((Machine.find_eq_ok_iff ..).mp found).2.symm.trans folder)
  have notRoot : work.path.place ≠ [] := by
    intro root
    rw [root, Disk.get?_root] at unused
    cases unused
  have unmounted : work.path.place ∉ world.machine.disk.mounts := fun mounted => by
    cases unused.symm.trans (tidy.mounts _ mounted)
  have removed : world.machine.disk.removeTree world.machine.working work.path =
      (.ok (), (world.machine.disk.eraseBelow work.path.place).erase work.path.place) :=
    Disk.removeTree_of_removable owned.absolute found (owned.removable work rfl) notRoot unmounted
  rw [removed] at left
  have inside (location : Location) (covers : work.path.place <+: location) :
      ((world.machine.disk.eraseBelow work.path.place).erase work.path.place).get? location =
        none := by
    have notTop : location ≠ [] := by
      rintro rfl
      exact notRoot (List.prefix_nil.mp covers)
    rw [Disk.get?_erase, if_neg notTop, Disk.get?_eraseBelow]
    split
    · rfl
    · rename_i apart
      rw [if_pos ⟨covers, Ne.symm apart⟩]
  have touches : Touches (Holding.tree work.path).Covers (fun _ => False) world.machine
      after.machine := by
    rw [left]
    refine Machine.touches_withDisk fun location => ?_
    by_cases covers : work.path.place <+: location
    · exact .inr (.inl covers)
    · rw [Disk.get?_erase_of_ne _ (by rintro rfl; exact covers (List.prefix_refl _)),
        Disk.get?_eraseBelow, if_neg fun below => covers below.1]
      exact .inl rfl
  refine tidy.giveUp lives touches (fun location covers => ?_) ?_ ?_
  · rw [left]
    exact inside location covers
  · rw [left]
    exact tidy.tree.eraseEmptied _
  · rw [left]
    rfl

theorem tidy_discarded (tidy : Tidy root lasting live world.machine) (lives : live held)
    (ran : Runs mishap world (Task.requestAll held.givenUp) trace value after) :
    Tidy root lasting (fun other => live other ∧ other ≠ held) after.machine ∧
      Steady root world.machine after.machine := by
  have owned := tidy.owned held lives
  have file (path : Path) (lives : live held) (isFile : held.holding = .file path)
      (given : held.givenUp = [.discardFile path]) :
      Tidy root lasting (fun other => live other ∧ other ≠ held) after.machine ∧
        Steady root world.machine after.machine := by
    have same : held.path = path := by
      cases held <;> cases isFile <;> rfl
    obtain ⟨entry, found⟩ := owned.found
    obtain ⟨contents, executable, stands⟩ := isFile ▸ owned.stands
    rw [same] at found
    obtain rfl : entry = .file contents executable :=
      Option.some.inj (((Machine.find_eq_ok_iff ..).mp found).2.symm.trans stands)
    have notRoot := Disk.ne_root_of_not_directory world.machine.disk (by rw [stands]; exact nofun)
    rw [given] at ran
    obtain ⟨-, rfl⟩ := runs_discardFile ran
    have touches : Touches held.holding.Covers (fun _ => False) world.machine
        (world.run (Task.requestAll [.discardFile path])).2.machine := by
      rw [discard_found found nofun, isFile]
      exact Machine.touches_withDisk (Disk.changesOnly_erase _ _)
    refine tidy.giveUp lives touches (fun location covers => ?_) ?_ ?_
    · rw [isFile] at covers
      obtain rfl : location = path.place := covers
      rw [discard_found found nofun, Machine.withDisk, Disk.get?_erase, if_neg notRoot, if_pos rfl]
    · rw [discard_found found nofun]
      exact tidy.tree.eraseThing (by rw [stands]; exact nofun)
    · rw [discard_found found nofun]
      rfl
  cases held with
  | source path => exact file path lives rfl rfl
  | archive path => exact file path lives rfl rfl
  | directory work =>
    cases work with
    | fixed path => exact owned.unique.elim
    | unique path => exact tidy_removed tidy lives (runs_discardTree ran).2

theorem tidy_remove (removes : mishap.SparesRemovals)
    (tidy : Tidy root lasting live world.machine) (lives : live (.directory work))
    (ended : Ends mishap world work.remove trace result after) :
    Tidy root lasting (fun other => live other ∧ other ≠ .directory work) after.machine ∧
      Steady root world.machine after.machine := by
  cases work with
  | fixed path => exact (tidy.owned _ lives).unique.elim
  | unique path =>
    obtain ⟨first, rest, answered, between, rfl, ran, later⟩ := Runs.bind ended
    have same : after = between := by
      cases answered <;> exact (runs_pure later).2.2
    subst same
    rcases runs_request ran with ⟨-, -, left⟩ | ⟨cause, left, -, harm, -, -⟩
    · exact tidy_removed tidy lives (by rw [left]; rfl)
    · exact absurd harm (removes _ _ _)

/-- What comes of an attempt to make something of a kind: directories on the way to the temporary
files, or the thing itself. -/
def Produces (root : Path) (kind : Held → Prop) (before after : Machine) :
    Except Failure Held → Prop
  | .error _ => Touches (fun _ => False) (root.OnWay before.working) before after
  | .ok held => kind held ∧ Arrived root before after held

theorem arrived_file {before after : Machine} {path : Path}
    (kind : held = .source path ∨ held = .archive path) (plain : Path.IsPlainName name)
    (isWhole : (root.child name).IsWhole before.working path)
    (free : before.disk.get? location = none)
    (found : after.find path = .ok (location, .file contents executable))
    (touches : Touches (· = location) (root.OnWay before.working) before after) :
    Arrived root before after held := by
  obtain ⟨leads, stands⟩ := (Machine.find_eq_ok_iff ..).mp found
  obtain rfl : location = path.place := Machine.locate_of_absolute isWhole.1 leads
  obtain ⟨whole, wholeRoot, named⟩ := isWhole.of_child plain.plain
  rcases kind with rfl | rfl
  all_goals
    exact ⟨⟨trivial, isWhole.1, ⟨_, found⟩, ⟨_, _, stands⟩, fun _ => nofun⟩,
      ⟨whole, name, wholeRoot, plain, named⟩, free, touches⟩

theorem ends_holdSource (clean : mishap.IsClean)
    (names : ∀ number, IsGivenName (world.names number)) (scratch : Scratch) (text : String)
    (ended : Ends mishap world (do return .source (← scratch.sourceFile text)) trace result
      after) : Produces scratch.root Held.IsFile world.machine after.machine result := by
  obtain ⟨first, rest, outcome, middle, rfl, made, later⟩ := ended.bind
  rcases ends_sourceFile scratch text made with
    ⟨failure, rfl, -, grown⟩ | ⟨path, location, rfl, -, -, -, written⟩
  · obtain ⟨-, rfl, rfl⟩ := later
    exact grown clean
  · obtain ⟨-, rfl, rfl⟩ := ends_pure later
    obtain ⟨free, ⟨executable, found⟩, touches, number, isWhole⟩ := written clean
    exact ⟨trivial, arrived_file (.inl rfl)
      (isPlainName_scratchFile (names number).plain (by decide)) isWhole free found touches⟩

theorem ends_holdArchive (clean : mishap.IsClean)
    (names : ∀ number, IsGivenName (world.names number)) (scratch : Scratch)
    (ended : Ends mishap world (do return .archive (← scratch.archivePath)) trace result after) :
    Produces scratch.root Held.IsFile world.machine after.machine result := by
  obtain ⟨first, rest, outcome, middle, rfl, made, later⟩ := ended.bind
  rcases ends_newFile scratch ".a" (by decide) made with
    ⟨failure, rfl, -, grown⟩ | ⟨path, location, between, rfl, -, fresh, grown⟩
  · obtain ⟨-, rfl, rfl⟩ := later
    exact grown clean
  · obtain ⟨-, rfl, rfl⟩ := ends_pure later
    obtain ⟨number, isWhole⟩ := fresh.named
    exact ⟨trivial, arrived_file (.inr rfl)
      (isPlainName_scratchFile (names number).plain (by decide))
      (isWhole.of_stays (grown clean).stays) ((grown clean).disk.free id fresh.free) fresh.found
      ((grown clean).more.trans fresh.touches)⟩

/-- A new directory can be removed again: its name is one that was given out, and the way to it
was there before it. -/
theorem NewDirectory.isRemovable {before later : Machine} (tree : before.disk.IsTree)
    (proper : ∀ number, IsGivenName (given number))
    (new : NewDirectory given parent start before later path location) : path.IsRemovable := by
  obtain ⟨origin, begun, followed⟩ := (Machine.locate_eq_ok_iff ..).mp new.leads
  obtain rfl := Machine.origin_absolute begun new.absolute
  have here : location = path.place := (new.names none).eq_place new.absolute
  refine ⟨fun piece last => ?_, fun visited member below => ?_⟩
  · obtain ⟨base, number, -, rfl⟩ := new.named
    obtain ⟨front, stem, shape⟩ := (Path.endsIn_append start (given number)
      (slashByte_mem_ofText.not.mpr (proper number).plain)).join base
    have plain : ¬ Disk.EndsInSlash (base.child (start ++ given number)) := by
      intro slash
      rw [Disk.EndsInSlash, Path.child, shape, List.getLast?_concat] at slash
      exact absurd (Option.some.inj slash) ((proper number).append_ne stem (by simp))
    rw [Disk.stem_of_not_endsInSlash plain, Path.child, shape, List.getLast?_concat] at last
    rw [← Option.some.inj last]
    exact ⟨(proper number).append_ne stem (by simp), (proper number).append_ne stem (by simp)⟩
  · have folder := ((Disk.walk_eq_ok_iff ..).mp followed).1 visited member
    rw [new.made, Machine.withDisk, Disk.get?_put_of_ne _ _ (here ▸ Ne.symm below.2)] at folder
    obtain ⟨⟨rest, rfl⟩, -⟩ := below
    rw [← here, tree.free_below new.free rest] at folder
    cases folder

theorem ends_holdDirectory (clean : mishap.IsClean) (tree : world.machine.disk.IsTree)
    (names : ∀ number, IsGivenName (world.names number)) (root parent : Path) (name : String)
    (ended : Ends mishap world (do return .directory (← WorkDirectory.make parent .unique name))
      trace result after) : Produces root (fun _ => True) world.machine after.machine result := by
  obtain ⟨first, rest, outcome, middle, rfl, made, later⟩ := ended.bind
  rcases ends_makeUnique clean parent name made with
    ⟨failure, rfl, same⟩ | ⟨path, location, rfl, new, -⟩
  · obtain ⟨-, rfl, rfl⟩ := later
    exact same ▸ .refl _
  · obtain ⟨-, rfl, rfl⟩ := ends_pure later
    have here : location = path.place := (new.names none).eq_place new.absolute
    have found : after.machine.find path = .ok (location, .directory) :=
      (Machine.find_eq_ok_iff ..).mpr ⟨new.leads, new.stands⟩
    subst here
    refine ⟨trivial, ⟨trivial, new.absolute, ⟨_, found⟩, new.stands, ?_⟩, trivial, new.free,
      new.touches⟩
    rintro work ⟨⟩
    exact new.isRemovable tree names

end World

namespace Shelf

def Holds (shelf : Shelf) (held : Held) : Prop := ∃ slot, shelf.get? slot = some held

/-- No slot and nothing that is held occurs twice. -/
structure IsNeat (shelf : Shelf) : Prop where
  slots : (shelf.held.map Prod.fst).Nodup
  once : ∀ slot other held, shelf.get? slot = some held → shelf.get? other = some held →
    slot = other

def stored (shelf : Shelf) (slot : String) (held : Held) : Shelf :=
  { shelf with held := setEntry slot held shelf.held }

variable {shelf : Shelf} {slot other : String} {held new : Held}

theorem get?_without (shelf : Shelf) (slot other : String) :
    (shelf.without slot).get? other = if other = slot then none else shelf.get? other := by
  rw [get?, without, lookup_filter (fun key => key != slot)]
  by_cases same : other = slot <;> simp [get?, same]

theorem get?_stored (shelf : Shelf) (slot other : String) (held : Held) :
    (shelf.stored slot held).get? other = if other = slot then some held else shelf.get? other :=
  lookup_setEntry slot other held shelf.held

theorem IsNeat.without (neat : shelf.IsNeat) (slot : String) : (shelf.without slot).IsNeat where
  slots := neat.slots.sublist (List.filter_sublist.map Prod.fst)
  once first second held found foundToo := by
    rw [get?_without] at found foundToo
    split at found
    · cases found
    split at foundToo
    · cases foundToo
    exact neat.once first second held found foundToo

theorem IsNeat.holds_without (neat : shelf.IsNeat) (found : shelf.get? slot = some held) :
    (shelf.without slot).Holds = fun other => shelf.Holds other ∧ other ≠ held := by
  funext new
  refine propext ⟨?_, ?_⟩
  · rintro ⟨place, there⟩
    rw [get?_without] at there
    split at there
    · cases there
    · rename_i apart
      refine ⟨⟨place, there⟩, ?_⟩
      rintro rfl
      exact apart (neat.once place slot new there found)
  · rintro ⟨⟨place, there⟩, apart⟩
    refine ⟨place, ?_⟩
    rw [get?_without, if_neg, there]
    rintro rfl
    exact apart (Option.some.inj (there.symm.trans found))

theorem without_of_none (missing : shelf.get? slot = none) : shelf.without slot = shelf := by
  have all : shelf.held.filter (·.1 != slot) = shelf.held := by
    refine List.filter_eq_self.mpr fun entry member => ?_
    have differs := List.lookup_eq_none_iff.mp missing entry member
    rw [bne_iff_ne]
    rintro rfl
    simp at differs
  rw [Shelf.without, all]

theorem IsNeat.stored (neat : shelf.IsNeat) (slot : String) (fresh : ¬ shelf.Holds new) :
    (shelf.stored slot new).IsNeat where
  slots := (Toml.Keyed.setEntry (⟨neat.slots, fun _ _ => trivial⟩ : Toml.Keyed (fun _ => True) _)
    slot trivial).distinct
  once first second held found foundToo := by
    rw [get?_stored] at found foundToo
    split at found <;> split at foundToo
    · rename_i here there
      exact here.trans there.symm
    · cases found
      exact absurd ⟨second, foundToo⟩ fresh
    · cases foundToo
      exact absurd ⟨first, found⟩ fresh
    · exact neat.once first second held found foundToo

theorem holds_stored (shelf : Shelf) (slot : String) (new : Held) :
    (shelf.stored slot new).Holds =
      fun other => (shelf.without slot).Holds other ∨ other = new := by
  funext other
  refine propext ⟨?_, ?_⟩
  · rintro ⟨place, there⟩
    rw [get?_stored] at there
    split at there
    · exact .inr (Option.some.inj there).symm
    · rename_i apart
      exact .inl ⟨place, by rw [get?_without, if_neg apart, there]⟩
  · rintro (⟨place, there⟩ | rfl)
    · rw [get?_without] at there
      split at there
      · cases there
      · rename_i apart
        exact ⟨place, by rw [get?_stored, if_neg apart, there]⟩
    · exact ⟨slot, by rw [get?_stored, if_pos rfl]⟩

theorem IsNeat.holds_stored (neat : shelf.IsNeat) (found : shelf.get? slot = some held)
    (fresh : ¬ shelf.Holds new) : (shelf.stored slot new).Holds =
      fun other => (shelf.Holds other ∨ other = new) ∧ other ≠ held := by
  rw [Shelf.holds_stored, neat.holds_without found]
  funext other
  refine propext ⟨?_, ?_⟩
  · rintro (⟨lives, apart⟩ | rfl)
    · exact ⟨.inl lives, apart⟩
    · exact ⟨.inr rfl, fun same => fresh (same ▸ ⟨slot, found⟩)⟩
  · rintro ⟨lives | rfl, apart⟩
    · exact .inl ⟨lives, apart⟩
    · exact .inr rfl

/-- Something that happens while a shelf is in use. -/
inductive Happening where
  | performed (step : Step) (reply : Reply) (before after : Machine)
  /-- Somebody else has written to a file in a slot, or has been at work in a directory there. -/
  | used (slot : String)
  /-- Somebody else has made something that has nothing to do with the shelf. -/
  | added (location : Location) (entry : DiskEntry)

/-- Whether a step gives a file to somebody who keeps it. -/
def Step.HandsOn : Step → Prop
  | .handOff _ | .relocate _ => True
  | _ => False

/-- A disk with a file on it that another machine has. -/
def receive (disk : Disk) (machine : Machine) (path : Path) : Disk :=
  match machine.find path with
  | .ok (location, entry) => disk.put location entry
  | .error _ => disk

theorem receive_of_find {disk : Disk} {machine : Machine}
    (found : machine.find path = .ok (location, entry)) :
    receive disk machine path = disk.put location entry := by
  rw [receive, found]

/-- What is to last: what others have made and what was handed on or relocated, but not what it
was relocated from. -/
def Happening.lasting (disk : Disk) : Happening → Disk
  | .performed (.handOff _) (.path path) _ after => receive disk after path
  | .performed (.relocate built) (.path path) before after =>
    match before.locate built with
    | .ok place => receive (disk.erase place) after path
    | .error _ => disk
  | .added location entry => disk.put location entry
  | _ => disk

/-- No directory in a slot is on the way to the temporary files, or to what is in another slot. -/
structure Untangled (root : Path) (working : Option Location) (shelf : Shelf) : Prop where
  clear : ∀ slot work whole, shelf.get? slot = some (.directory work) →
    root.IsWhole working whole → ¬ whole.LeadsInto work.path
  apart : ∀ slot other work held, shelf.get? slot = some (.directory work) →
    shelf.get? other = some held → slot ≠ other → ¬ held.path.LeadsInto work.path

/-- Directories are unique ones, only files are handed on, and what is relocated is no link and
nobody's. -/
def Step.Permitted (shelf : Shelf) (log : List Happening) (machine : Machine) : Step → Prop
  | .directory _ _ mode _ => mode = .unique
  | .handOff slot => ∀ work, shelf.get? slot ≠ some (.directory work)
  | .relocate built => ¬ machine.IsLink built ∧ ∀ place, built.Names machine.working place →
      (∀ held, shelf.Holds held → held.path.place ≠ place) ∧
      ∀ step path before after, .performed step (.path path) before after ∈ log → step.HandsOn →
        path.place ≠ place
  | _ => True

/-- A directory is not made in the one that it replaces. -/
def Step.IsOutside (shelf : Shelf) (reply : Reply) : Step → Prop
  | .directory slot _ _ _ => ∀ work path, shelf.get? slot = some (.directory work) →
      reply = .path path → ¬ path.LeadsInto work.path
  | _ => True

/-- Whether the path that a step replies with is a new one. -/
def Step.Makes : Step → Prop
  | .source .. | .archive _ | .directory .. | .relocate _ => True
  | .handOff _ | .remove _ | .drop _ => False

/-- What a step makes of a shelf and of the machine. -/
structure Advance (root : Path) (lasting : Disk) (shelf next : Shelf) (before after : Machine) :
    Prop where
  scratch : next.scratch = shelf.scratch
  neat : next.IsNeat
  tidy : Tidy root lasting next.Holds after
  steady : Steady root before after

/-- What a step comes to: a path that is given out is new, a file that is handed on lasts, and
what was to last is to last, but for the original of a relocation. -/
structure Performance (root : Path) (lasting : Disk) (shelf next : Shelf) (step : Step)
    (reply : Reply) (before after : Machine) : Prop extends
    Advance root (Happening.lasting lasting (.performed step reply before after)) shelf next before
      after where
  fresh : ∀ path, reply = .path path → step.Makes → ∀ found, before.find path ≠ .ok found
  handed : ∀ path, reply = .path path → step.HandsOn →
    ∃ contents executable,
      LastingFile root (Happening.lasting lasting (.performed step reply before after)) after path
        contents executable
  kept : ∀ location entry, lasting.get? location = some entry →
    (Happening.lasting lasting (.performed step reply before after)).get? location = some entry ∨
      ∃ built, step = .relocate built ∧ built.Names before.working location

section Steps

open World Machine

variable {mishap : Mishap} {world after : World} {trace : List Exchange} {root : Path}
  {lasting : Disk} {next : Shelf} {reply : Reply}

theorem runs_store {make : Task Held}
    (ran : Runs mishap world (shelf.store slot make) trace (reply, next) after) :
    ∃ first rest outcome middle, trace = first ++ rest ∧
      Ends mishap world make first outcome middle ∧
      match outcome with
      | .error failure => reply = .failed failure ∧ next = shelf ∧ after = middle
      | .ok held => reply = .path held.path ∧ next = shelf.stored slot held ∧
          Runs mishap middle (giveUp (shelf.get? slot)) rest () after := by
  obtain ⟨first, rest, outcome, middle, rfl, made, later⟩ := Runs.bind ran
  refine ⟨first, rest, outcome, middle, rfl, made, ?_⟩
  cases outcome with
  | error failure =>
    obtain ⟨-, same, rfl⟩ := runs_pure later
    cases same
    exact ⟨rfl, rfl, rfl⟩
  | ok held =>
    obtain ⟨second, last, ⟨⟩, between, rfl, given, done⟩ := Runs.bind later
    obtain ⟨rfl, same, rfl⟩ := runs_pure done
    cases same
    rw [List.append_nil]
    exact ⟨rfl, rfl, given⟩

theorem not_found_of_free {machine : Machine} (absolute : path.isAbsolute = true)
    (free : machine.disk.get? path.place = none) (found : Location × DiskEntry) :
    machine.find path ≠ .ok found := by
  intro stood
  obtain ⟨leads, stands⟩ := (Machine.find_eq_ok_iff ..).mp stood
  have here : found.1 = path.place := Machine.locate_of_absolute absolute leads
  rw [here, free] at stands
  cases stands

theorem Advance.performance {before after : Machine} {step : Step}
    (advance : Advance root lasting shelf next before after)
    (lasts : Happening.lasting lasting (.performed step reply before after) = lasting)
    (keeps : ∀ path, reply = .path path → ¬ step.HandsOn)
    (fresh : ∀ path, reply = .path path → step.Makes → ∀ found, before.find path ≠ .ok found) :
    Performance root lasting shelf next step reply before after where
  toAdvance := lasts.symm ▸ advance
  fresh := fresh
  handed path given hands := absurd hands (keeps path given)
  kept location entry stands := by
    rw [lasts]
    exact .inl stands

/-- What has arrived in a slot is not in a directory of another, nor in the one that it replaces. -/
theorem not_leadsInto_of_arrived {left : Machine}
    (tidy : Tidy root lasting shelf.Holds world.machine)
    (arrived : Arrived root world.machine left held)
    (untangled : (shelf.stored slot held).Untangled root world.machine.working)
    (replaced : ∀ created work, held = .directory created →
      shelf.get? slot = some (.directory work) → ¬ held.path.LeadsInto work.path)
    (holds : shelf.Holds (.directory work)) : ¬ held.path.LeadsInto work.path := by
  cases held with
  | source path | archive path =>
    obtain ⟨whole, name, isWhole, plain, rfl⟩ := arrived.sited
    refine tidy.not_leadsInto holds isWhole plain fun same => ?_
    exact (tidy.owned _ holds).occupied (same ▸ arrived.free)
  | directory created =>
    obtain ⟨place, there⟩ := holds
    by_cases same : place = slot
    · exact replaced created work rfl (same ▸ there)
    · refine untangled.apart place slot work _ ?_ ?_ same
      · rw [get?_stored, if_neg same, there]
      · rw [get?_stored, if_pos rfl]

theorem tidy_stored (neat : shelf.IsNeat) (fresh : ¬ shelf.Holds held)
    (tidy : Tidy root lasting (fun other => shelf.Holds other ∨ other = held) world.machine)
    (given : Runs mishap world (giveUp (shelf.get? slot)) trace value after) :
    Tidy root lasting (shelf.stored slot held).Holds after.machine ∧
      Steady root world.machine after.machine := by
  cases found : shelf.get? slot with
  | none =>
    rw [found] at given
    obtain ⟨-, -, rfl⟩ := runs_pure given
    rw [Shelf.holds_stored, without_of_none found]
    exact ⟨tidy, .refl _ _⟩
  | some old =>
    rw [found] at given
    rw [neat.holds_stored found fresh]
    exact tidy_discarded tidy (.inl ⟨slot, found⟩) given

/-- Storing something new keeps a shelf tidy, whether it is made or not. -/
theorem performance_store {make : Task Held} {kind : Held → Prop} {step : Step}
    (clean : mishap.IsClean) (neat : shelf.IsNeat)
    (tidy : Tidy root lasting shelf.Holds world.machine) (asks : make.Asks Request.IsLocal)
    (produces : ∀ first outcome middle, Ends mishap world make first outcome middle →
      Produces root kind world.machine middle.machine outcome)
    (ran : Runs mishap world (shelf.store slot make) trace (reply, next) after)
    (untangled : next.Untangled root world.machine.working)
    (replaced : ∀ made work, kind (.directory made) → reply = .path made.path →
      shelf.get? slot = some (.directory work) → ¬ made.path.LeadsInto work.path)
    (lasts : Happening.lasting lasting (.performed step reply world.machine after.machine) =
      lasting)
    (keeps : ¬ step.HandsOn) :
    Performance root lasting shelf next step reply world.machine after.machine := by
  obtain ⟨first, rest, outcome, middle, rfl, made, later⟩ := runs_store ran
  have produced := produces first outcome middle made
  obtain ⟨tree, mounts⟩ := made.settled clean asks tidy.tree
  cases outcome with
  | error failure =>
    obtain ⟨rfl, rfl, rfl⟩ := later
    obtain ⟨tidyToo, steady⟩ := tidy.grow produced tree mounts
    exact Advance.performance ⟨rfl, neat, tidyToo, steady⟩ lasts nofun nofun
  | ok held =>
    obtain ⟨rfl, rfl, given⟩ := later
    obtain ⟨isKind, arrived⟩ := produced
    have fresh : ¬ shelf.Holds held := fun holds =>
      (tidy.owned held holds).occupied arrived.free
    have own : (shelf.stored slot held).get? slot = some held := by
      rw [get?_stored, if_pos rfl]
    have others (work : WorkDirectory) (holds : shelf.Holds (.directory work)) :
        ¬ held.path.LeadsInto work.path :=
      not_leadsInto_of_arrived tidy arrived untangled
        (fun created _ same => by
          subst same
          exact replaced created _ isKind rfl) holds
    obtain ⟨tidyToo, steady⟩ := tidy.arrive arrived tree mounts
      (fun work whole same => by
        subst same
        exact untangled.clear slot work whole own) others
    obtain ⟨tidyLast, steadyToo⟩ := tidy_stored neat fresh tidyToo given
    refine Advance.performance ⟨rfl, neat.stored slot fresh, tidyLast, steady.trans steadyToo⟩ lasts
      (fun _ _ => keeps) ?_
    rintro path ⟨⟩ -
    exact not_found_of_free arrived.owned.absolute arrived.free

theorem performance_handOff {machine : Machine} (neat : shelf.IsNeat)
    (tidy : Tidy root lasting shelf.Holds machine) (found : shelf.get? slot = some held)
    (isFile : ∀ work, held ≠ .directory work) :
    Performance root lasting shelf (shelf.without slot) (.handOff slot) (.path held.path) machine
      machine := by
  have lives : shelf.Holds held := ⟨slot, found⟩
  have owned := tidy.owned held lives
  have sited := tidy.sited held lives
  obtain ⟨entry, leads⟩ := owned.found
  have stands : ∃ contents executable, held.holding = .file held.path ∧
      entry = .file contents executable := by
    have there := ((Machine.find_eq_ok_iff ..).mp leads).2
    cases held with
    | directory work => exact absurd rfl (isFile work)
    | source path | archive path =>
      obtain ⟨contents, executable, file⟩ := owned.stands
      exact ⟨contents, executable, rfl, Option.some.inj (there.symm.trans file)⟩
  obtain ⟨contents, executable, isFile, rfl⟩ := stands
  have there := ((Machine.find_eq_ok_iff ..).mp leads).2
  have notRoot := Disk.ne_root_of_not_directory machine.disk (by rw [there]; exact nofun)
  have lasts : Happening.lasting lasting
      (.performed (.handOff slot) (.path held.path) machine machine) =
      lasting.put held.path.place (.file contents executable) := receive_of_find leads
  have put : (lasting.put held.path.place (.file contents executable)).get? held.path.place =
      some (.file contents executable) := by
    rw [Disk.get?_put, if_neg notRoot, if_pos rfl]
  refine ⟨⟨rfl, neat.without slot, ?_, .refl root machine⟩, fun _ _ => False.elim, ?_, ?_⟩
  · rw [lasts, neat.holds_without found]
    exact tidy.handOn lives isFile there nofun
  · rintro path ⟨⟩ -
    rw [lasts]
    refine ⟨contents, executable, owned.absolute, leads, put, ?_⟩
    cases held with
    | directory work => cases isFile
    | source path | archive path => exact sited
  · intro location entry stands
    rw [lasts, Disk.get?_put_of_ne _ _ ?_]
    · exact .inl stands
    · rintro rfl
      have free := tidy.unused held _ lives (by rw [isFile]; exact rfl)
      cases free.symm.trans stands

/-- A relocation gives out a new path, under which the file lasts. -/
theorem performance_relocated {before after : Machine} (neat : shelf.IsNeat)
    (tidy : Tidy root lasting shelf.Holds before)
    (held : before.find built = .ok (place, .file contents executable))
    (relocation : Relocation root built place (.file contents executable) before after path
      location)
    (unheld : ∀ other, shelf.Holds other → other.path.place ≠ place) (tree : after.disk.IsTree)
    (mounts : after.disk.mounts = before.disk.mounts) :
    Performance root lasting shelf shelf (.relocate built) (.path path) before after := by
  obtain ⟨tidyToo, steady⟩ := tidy.relocate held relocation unheld tree mounts
  have leads := ((Machine.find_eq_ok_iff ..).mp held).1
  have lasts : Happening.lasting lasting (.performed (.relocate built) (.path path) before after) =
      (lasting.erase place).put location (.file contents executable) := by
    rw [Happening.lasting, leads]
    exact receive_of_find relocation.found
  obtain ⟨folder, name, -, -, plain, isWhole⟩ := relocation.inRoot
  obtain ⟨whole, wholeRoot, named⟩ := isWhole.of_child plain.plain
  obtain ⟨leadsToo, stands⟩ := (Machine.find_eq_ok_iff ..).mp relocation.found
  obtain rfl : location = path.place := Machine.locate_of_absolute isWhole.1 leadsToo
  have notRoot := Disk.ne_root_of_not_directory after.disk (by rw [stands]; exact nofun)
  refine ⟨⟨rfl, neat, lasts ▸ tidyToo, steady⟩, ?_, ?_, ?_⟩
  · rintro _ ⟨⟩ -
    exact not_found_of_free isWhole.1 relocation.wasNew.2
  · rintro _ ⟨⟩ -
    rw [lasts]
    refine ⟨contents, executable, isWhole.1, relocation.found, ?_, whole, name,
      steady.working ▸ wholeRoot, plain, named⟩
    rw [Disk.get?_put, if_neg notRoot, if_pos rfl]
  · intro there entry stood
    rw [lasts]
    by_cases original : there = place
    · exact .inr ⟨built, rfl, original ▸ Path.names_of_locate leads⟩
    · rw [Disk.get?_put_of_ne _ _ ?_, Disk.get?_erase_of_ne _ original]
      · exact .inl stood
      · rintro rfl
        cases (tidy.free relocation.wasNew.2).symm.trans stood

theorem performance_relocate (clean : mishap.IsClean)
    (names : ∀ number, IsGivenName (world.names number)) (neat : shelf.IsNeat)
    (tidy : Tidy shelf.scratch.root lasting shelf.Holds world.machine)
    (noLink : ¬ world.machine.IsLink built)
    (unheld : ∀ place, built.Names world.machine.working place →
      ∀ held, shelf.Holds held → held.path.place ≠ place)
    (ran : Runs mishap world (shelf.perform (.relocate built)) trace (reply, next) after) :
    Performance shelf.scratch.root lasting shelf next (.relocate built) reply world.machine
      after.machine := by
  obtain ⟨first, rest, outcome, middle, rfl, moved, later⟩ := Runs.bind ran
  obtain ⟨tree, mounts⟩ := moved.settled clean (Scratch.asks_relocate _ built).isLocal tidy.tree
  cases isFile : world.machine.isFile built with
  | false =>
    obtain ⟨rfl, rfl⟩ := ends_relocate_missing isFile shelf.scratch moved
    obtain ⟨-, same, rfl⟩ := runs_pure later
    cases same
    exact Advance.performance ⟨rfl, neat, tidy, .refl _ _⟩ rfl nofun nofun
  | true =>
    obtain ⟨place, contents, executable, reached⟩ := (Machine.isFile_iff ..).mp isFile
    have held := (Machine.reach_cases reached).resolve_right noLink
    have leads := ((Machine.find_eq_ok_iff ..).mp held).1
    rcases ends_relocate_file clean.sparesAllButCopies
        (fun here stands => (tidy.working here stands).1) (fun number => (names number).plain) held
        shelf.scratch moved with
      ⟨path, location, rfl, relocation⟩ | ⟨⟨failure, rfl⟩, -, touches⟩
    · obtain ⟨-, same, rfl⟩ := runs_pure later
      cases same
      exact performance_relocated neat tidy held relocation
        (unheld place (Path.names_of_locate leads)) tree mounts
    · obtain ⟨-, same, rfl⟩ := runs_pure later
      cases same
      obtain ⟨tidyToo, steady⟩ := tidy.grow touches tree mounts
      exact Advance.performance ⟨rfl, neat, tidyToo, steady⟩ rfl nofun nofun

theorem performance_remove (removes : mishap.SparesRemovals) (neat : shelf.IsNeat)
    (tidy : Tidy root lasting shelf.Holds world.machine)
    (ran : Runs mishap world (shelf.perform (.remove slot)) trace (reply, next) after) :
    Performance root lasting shelf next (.remove slot) reply world.machine after.machine := by
  have unchanged (ran : Runs mishap world (pure (Reply.noSuchSlot, shelf)) trace (reply, next)
      after) : Performance root lasting shelf next (.remove slot) reply world.machine
        after.machine := by
    obtain ⟨-, same, rfl⟩ := runs_pure ran
    cases same
    exact Advance.performance ⟨rfl, neat, tidy, .refl _ _⟩ rfl nofun nofun
  rw [perform] at ran
  cases found : shelf.get? slot with
  | none =>
    rw [found] at ran
    exact unchanged ran
  | some held =>
    rw [found] at ran
    cases held with
    | source path => exact unchanged ran
    | archive path => exact unchanged ran
    | directory work =>
      obtain ⟨first, rest, outcome, middle, rfl, removed, later⟩ := Runs.bind ran
      obtain ⟨tidyToo, steady⟩ := tidy_remove removes tidy ⟨slot, found⟩ removed
      rw [← neat.holds_without found] at tidyToo
      cases outcome
      all_goals
        obtain ⟨-, same, rfl⟩ := runs_pure later
        cases same
        exact Advance.performance ⟨rfl, neat.without slot, tidyToo, steady⟩ rfl nofun nofun

theorem performance_drop (neat : shelf.IsNeat)
    (tidy : Tidy root lasting shelf.Holds world.machine)
    (ran : Runs mishap world (shelf.perform (.drop slot)) trace (reply, next) after) :
    Performance root lasting shelf next (.drop slot) reply world.machine after.machine := by
  obtain ⟨first, rest, ⟨⟩, middle, rfl, given, later⟩ := Runs.bind ran
  obtain ⟨-, same, rfl⟩ := runs_pure later
  cases same
  have emptied : Tidy root lasting (shelf.without slot).Holds after.machine ∧
      Steady root world.machine after.machine := by
    cases found : shelf.get? slot with
    | none =>
      rw [found] at given
      obtain ⟨-, -, rfl⟩ := runs_pure given
      rw [without_of_none found]
      exact ⟨tidy, .refl _ _⟩
    | some held =>
      rw [found] at given
      rw [neat.holds_without found]
      exact tidy_discarded tidy ⟨slot, found⟩ given
  exact Advance.performance ⟨rfl, neat.without slot, emptied.1, emptied.2⟩ rfl nofun nofun

/-- A permitted step keeps a tidy shelf tidy, as long as what is on it stays untangled. -/
theorem performance_perform {step : Step} {log : List Happening} (clean : mishap.IsClean)
    (removes : mishap.SparesRemovals) (names : ∀ number, IsGivenName (world.names number))
    (neat : shelf.IsNeat) (tidy : Tidy shelf.scratch.root lasting shelf.Holds world.machine)
    (permitted : step.Permitted shelf log world.machine)
    (ran : Runs mishap world (shelf.perform step) trace (reply, next) after)
    (untangled : next.Untangled shelf.scratch.root world.machine.working)
    (outside : step.IsOutside shelf reply) :
    Performance shelf.scratch.root lasting shelf next step reply world.machine after.machine := by
  cases step with
  | source slot contents =>
    exact performance_store clean neat tidy
      (.bind (Scratch.asks_sourceFile _ _).isLocal fun _ => .pure _ _)
      (fun _ _ _ => ends_holdSource clean names shelf.scratch contents) ran untangled
      (fun _ _ isFile => isFile.elim) rfl id
  | archive slot =>
    exact performance_store clean neat tidy
      (.bind (Scratch.asks_newFile _ _).isLocal fun _ => .pure _ _)
      (fun _ _ _ => ends_holdArchive clean names shelf.scratch) ran untangled
      (fun _ _ isFile => isFile.elim) rfl id
  | directory slot parent mode name =>
    obtain rfl : mode = .unique := permitted
    exact performance_store clean neat tidy
      (.bind (WorkDirectory.asks_make parent .unique name).isScratch.isLocal fun _ => .pure _ _)
      (fun _ _ _ => ends_holdDirectory clean tidy.tree names shelf.scratch.root parent name) ran
      untangled (fun made work _ same there => outside work made.path there same) rfl id
  | handOff slot =>
    rw [perform] at ran
    cases found : shelf.get? slot with
    | none =>
      rw [found] at ran
      obtain ⟨-, same, rfl⟩ := runs_pure ran
      cases same
      exact Advance.performance ⟨rfl, neat, tidy, .refl _ _⟩ rfl nofun nofun
    | some held =>
      rw [found] at ran
      obtain ⟨-, same, rfl⟩ := runs_pure ran
      cases same
      exact performance_handOff neat tidy found fun work isWork => permitted work (isWork ▸ found)
  | relocate built =>
    exact performance_relocate clean names neat tidy permitted.1
      (fun place leads => (permitted.2 place leads).1) ran
  | remove slot => exact performance_remove removes neat tidy ran
  | drop slot => exact performance_drop neat tidy ran

end Steps

end Shelf

end FragmentBuild
