import FragmentBuild.Proofs.Endings
import FragmentBuild.Proofs.NamedPlaces

/-! Which locations a change of a disk touches. Changes that follow each other touch no more
than each of them does, so a program's footprint is put together from those of its steps. -/
namespace FragmentBuild

namespace Disk

/-- Whatever stands at other locations than `places` is as it was, except that directories may
have been made at `made` where nothing stood. -/
def ChangesOnly (places made : Location → Prop) (before after : Disk) : Prop :=
  ∀ location, after.get? location = before.get? location ∨ places location ∨
    made location ∧ before.get? location = none ∧ after.get? location = some .directory

variable {places made : Location → Prop} {before middle after : Disk}

theorem ChangesOnly.refl (disk : Disk) : ChangesOnly places made disk disk := fun _ => .inl rfl

theorem ChangesOnly.weaken (changes : ChangesOnly places made before after)
    (wider : ∀ location, places location → more location)
    (further : ∀ location, made location → others location) :
    ChangesOnly more others before after := fun location =>
  (changes location).imp_right (Or.imp (wider location) (And.imp_left (further location)))

theorem ChangesOnly.trans (first : ChangesOnly places made before middle)
    (second : ChangesOnly places made middle after) : ChangesOnly places made before after := by
  intro location
  rcases second location with same | here | ⟨isMade, free, folder⟩
  · rw [same]; exact first location
  · exact .inr (.inl here)
  · rcases first location with same | here | ⟨-, -, stands⟩
    · exact .inr (.inr ⟨isMade, same ▸ free, folder⟩)
    · exact .inr (.inl here)
    · rw [free] at stands; cases stands

theorem ChangesOnly.keeps (changes : ChangesOnly places made before after)
    (apart : ¬ places location) (stands : before.get? location = some entry) :
    after.get? location = some entry := by
  rcases changes location with same | here | ⟨-, free, -⟩
  · rw [same, stands]
  · exact absurd here apart
  · rw [stands] at free; cases free

theorem ChangesOnly.free (changes : ChangesOnly places made before after)
    (apart : ¬ places location) (free : after.get? location = none) :
    before.get? location = none := by
  by_contra stood
  obtain ⟨entry, stands⟩ := Option.ne_none_iff_exists'.mp stood
  rw [changes.keeps apart stands] at free
  cases free

theorem ChangesOnly.keepsDirectories (changes : ChangesOnly places made before after)
    (things : ∀ location, places location → before.get? location ≠ some .directory) :
    KeepsDirectories before after := fun location folder =>
  changes.keeps (fun here => things location here folder) folder

theorem changesOnly_put (disk : Disk) (location : Location) (entry : DiskEntry) :
    ChangesOnly (· = location) made disk (disk.put location entry) := by
  intro other
  rw [get?_put]
  by_cases root : other = []
  · rw [if_pos root, root, get?_root]; exact .inl rfl
  by_cases same : other = location
  · exact .inr (.inl same)
  · rw [if_neg root, if_neg same]; exact .inl rfl

theorem changesOnly_erase (disk : Disk) (location : Location) :
    ChangesOnly (· = location) made disk (disk.erase location) := by
  intro other
  rw [get?_erase]
  by_cases root : other = []
  · rw [if_pos root, root, get?_root]; exact .inl rfl
  by_cases same : other = location
  · exact .inr (.inl same)
  · rw [if_neg root, if_neg same]; exact .inl rfl

theorem adds_makeDirectory {disk : Disk}
    (made : disk.makeDirectory working path = .ok after) :
    ChangesOnly (fun _ => False) (path.Names working) disk after := by
  obtain ⟨location, _, leads, free, rfl, -⟩ := makeDirectory_eq_ok made
  intro other
  have only : ChangesOnly (· = location) (fun _ => False) disk
    (disk.put location .directory) := changesOnly_put disk location .directory
  rcases only other with same | rfl | ⟨⟨⟩, -⟩
  · exact .inl same
  · have notRoot := ne_root_of_not_directory disk (by rw [free]; exact nofun)
    refine .inr (.inr ⟨Path.names_of_locateNew leads, free, ?_⟩)
    rw [get?_put, if_neg notRoot, if_pos rfl]

/-- Making directories touches only what the paths name. -/
theorem changesOnly_makeEach (disk : Disk) (working : Option Location) (paths : List Path) :
    ChangesOnly (fun _ => False) (fun location => ∃ path ∈ paths, path.Names working location)
      disk (disk.makeEach working paths).2 :=
  makeEach_keeps paths (.refl disk) fun path member _ _ changes made =>
    changes.trans ((adds_makeDirectory made).weaken (fun _ => id) fun _ names =>
      ⟨path, member, names⟩)

theorem changesOnly_makeDirectories (disk : Disk) (working : Option Location) (path : Path) :
    ChangesOnly (fun _ => False)
      (fun location => ∃ parent ∈ path.ancestors, parent.Names working location) disk
      (disk.makeDirectories working path).2 :=
  changesOnly_makeEach disk working path.ancestors

variable {disk : Disk} {working : Option Location}

theorem changesOnly_makeDirectory (done : disk.makeDirectory working path = .ok after) :
    ChangesOnly (path.Names working) made disk after := by
  obtain ⟨location, slash, leads, -, rfl, -⟩ := makeDirectory_eq_ok done
  exact (changesOnly_put disk location _).weaken
    (fun _ here => here ▸ Path.names_of_locateNew leads) fun _ => id

theorem changesOnly_createFile (done : disk.createFile working path = .ok after) :
    ChangesOnly (path.Names working) made disk after := by
  obtain ⟨location, leads, -, rfl⟩ := createFile_eq_ok done
  exact (changesOnly_put disk location _).weaken
    (fun _ here => here ▸ Path.names_of_locate leads) fun _ => id

theorem changesOnly_write (done : disk.write working path contents = .ok after) :
    ChangesOnly (fun location => disk.aim working path = .ok location) made disk after := by
  obtain ⟨location, leads, ⟨-, rfl⟩ | ⟨-, executable, rfl⟩⟩ := write_eq_ok done
  · exact .refl _
  · exact (changesOnly_put disk location _).weaken (fun _ here => here ▸ leads) fun _ => id

theorem changesOnly_rename (done : disk.rename working source target = .ok after) :
    ChangesOnly (fun location => source.Names working location ∨ target.Names working location)
      made disk after := by
  obtain ⟨location, entry, goal, found, -, leads, -, rfl⟩ := rename_eq_ok done
  split
  · exact .refl _
  · refine .trans ((changesOnly_erase disk location).weaken (fun _ here => .inl ?_) fun _ => id)
      ((changesOnly_put _ goal entry).weaken (fun _ here => .inr ?_) fun _ => id)
    · exact here ▸ Path.names_of_locate ((find_eq_ok_iff ..).mp found).1
    · exact here ▸ Path.names_of_locate leads

theorem changesOnly_copy (done : disk.copy working source target = .ok after) :
    ChangesOnly (fun location => disk.aim working target = .ok location) made disk after := by
  obtain ⟨_, contents, executable, goal, -, leads, ⟨-, rfl⟩ | ⟨-, rfl⟩⟩ := copy_eq_ok done
  · exact .refl _
  · exact (changesOnly_put disk goal _).weaken (fun _ here => here ▸ leads) fun _ => id

theorem changesOnly_removeFile (done : disk.removeFile working path = .ok after) :
    ChangesOnly (path.Names working) made disk after := by
  obtain ⟨location, slash, leads, -, rfl⟩ := removeFile_eq_ok done
  exact (changesOnly_erase disk location).weaken
    (fun _ here => here ▸ Path.names_of_locateNew leads) fun _ => id

theorem changesOnly_removeTree (disk : Disk) (working : Option Location) (path : Path) :
    ChangesOnly (path.Contains working) made disk (disk.removeTree working path).2 := by
  have emptied (root : Location) (names : path.Names working root) :
      ChangesOnly (path.Contains working) made disk (disk.eraseBelow root) := by
    intro location
    rw [get?_eraseBelow]
    split
    · rename_i below
      exact .inr (.inl ⟨root, names, below.1⟩)
    · exact .inl rfl
  rcases removeTree_cases disk working path with
    ⟨cause, refused⟩ | ⟨location, target, link, gone⟩ |
      ⟨root, found, ⟨result, left, -⟩ | ⟨erased, -⟩⟩
  · rw [refused]; exact .refl disk
  · have names := Path.names_of_locate ((find_eq_ok_iff ..).mp link).1
    rw [gone]
    exact (changesOnly_erase _ location).weaken (fun _ here => here ▸ names.contains) fun _ => id
  all_goals have names := Path.names_of_locate ((find_eq_ok_iff ..).mp found).1
  · rw [left]; exact emptied root names
  · rw [erased]
    exact (emptied root names).trans ((changesOnly_erase _ root).weaken
      (fun _ here => here ▸ names.contains) fun _ => id)

end Disk

/-- Refused requests have done nothing. -/
def Mishap.IsClean (mishap : Mishap) : Prop :=
  ∀ request before after, mishap request before after → after = before

theorem Mishap.isClean_refusals : Mishap.refusals.IsClean := fun _ _ _ same => same

namespace Machine

/-- Between two machines only the given locations have changed. No working directory was given,
and none was lost but with its directory. -/
structure Touches (places made : Location → Prop) (before after : Machine) : Prop where
  disk : Disk.ChangesOnly places made before.disk after.disk
  stays : ∀ here, after.working = some here → before.working = some here
  keeps : ∀ here, before.working = some here → before.disk.get? here = some .directory →
    ¬ places here → after.working = some here

variable {places made : Location → Prop} {before middle after : Machine}

theorem Touches.refl (machine : Machine) : Touches places made machine machine :=
  ⟨.refl _, fun _ => id, fun _ stands _ _ => stands⟩

theorem Touches.trans (first : Touches places made before middle)
    (second : Touches places made middle after) : Touches places made before after where
  disk := first.disk.trans second.disk
  stays here stands := first.stays here (second.stays here stands)
  keeps here stands folder apart :=
    second.keeps here (first.keeps here stands folder apart) (first.disk.keeps apart folder) apart

theorem Touches.weaken (touches : Touches places made before after)
    (wider : ∀ location, places location → more location)
    (further : ∀ location, made location → others location) :
    Touches more others before after :=
  ⟨touches.disk.weaken wider further, touches.stays, fun here stands folder apart =>
    touches.keeps here stands folder fun inside => apart (wider here inside)⟩

theorem Touches.more (touches : Touches (fun _ => False) made before after) :
    Touches places made before after :=
  touches.weaken (fun _ => False.elim) fun _ => id

theorem touches_withDisk {machine : Machine} {disk : Disk}
    (changes : Disk.ChangesOnly places made machine.disk disk) :
    Touches places made machine (machine.withDisk disk) where
  disk := changes
  stays _ := World.working_filter
  keeps here stands folder apart := by
    simp [withDisk, stands, Disk.holds, changes.keeps apart folder, Option.filter]

/-- What was made and is gone has left no trace. -/
theorem Touches.restored {lost : Location → Prop}
    (touches : Touches (fun other => places other ∨ lost other) made before after)
    (was : ∀ location, lost location → before.disk.get? location = none)
    (isGone : ∀ location, lost location → after.disk.get? location = none) :
    Touches places made before after := by
  refine ⟨fun other => ?_, touches.stays, fun here stands folder apart => ?_⟩
  · rcases touches.disk other with same | (inside | gone) | folder
    · exact .inl same
    · exact .inr (.inl inside)
    · exact .inl ((isGone other gone).trans (was other gone).symm)
    · exact .inr (.inr folder)
  · refine touches.keeps here stands folder fun changed => changed.elim apart fun gone => ?_
    rw [was here gone] at folder
    cases folder

/-- A path leads to where it did as long as no directory is changed. -/
theorem Touches.locate (touches : Touches places made before after)
    (leads : before.locate path = .ok location)
    (things : ∀ other, places other → before.disk.get? other ≠ some .directory) :
    after.locate path = .ok location := by
  obtain ⟨start, begun, followed⟩ := (locate_eq_ok_iff ..).mp leads
  refine (locate_eq_ok_iff ..).mpr ⟨start, ?_,
    Disk.walk_mono (touches.disk.keepsDirectories things) followed⟩
  cases absolute : path.isAbsolute with
  | true =>
    simp only [Disk.origin, absolute, if_true] at begun ⊢
    exact begun
  | false =>
    have working := origin_relative begun absolute
    obtain ⟨piece, more, shape⟩ := List.exists_cons_of_ne_nil (pieces_ne_nil path.text.toList)
    have folder := ((Disk.walk_eq_ok_iff ..).mp followed).1 start (by simp [shape, passed])
    rw [touches.keeps start working folder fun inside => things start inside folder]
    rwa [working] at begun

/-- What is found and lies apart from all changes is found again. -/
theorem Touches.find (touches : Touches places made before after)
    (found : before.find path = .ok (location, entry)) (apart : ¬ places location)
    (things : ∀ other, places other → before.disk.get? other ≠ some .directory) :
    after.find path = .ok (location, entry) := by
  obtain ⟨leads, stands⟩ := (find_eq_ok_iff ..).mp found
  exact (find_eq_ok_iff ..).mpr
    ⟨touches.locate leads things, touches.disk.keeps apart stands⟩

theorem Touches.enters (touches : Touches places made before after)
    (enters : before.Enters path root)
    (things : ∀ other, places other → before.disk.get? other ≠ some .directory) :
    after.Enters path root := by
  obtain ⟨start, begins, followed, stands⟩ := enters
  have keeps := touches.disk.keepsDirectories things
  refine ⟨start, ?_, Disk.walk_mono keeps followed, keeps root stands⟩
  split at begins
  · rename_i absolute
    rwa [if_pos absolute]
  · rename_i relative
    obtain ⟨piece, more, shape⟩ := List.exists_cons_of_ne_nil (pieces_ne_nil path.text.toList)
    have folder := ((Disk.walk_eq_ok_iff ..).mp followed).1 start (by simp [shape, passed])
    rw [if_neg relative]
    exact touches.keeps start begins folder fun inside => things start inside folder

end Machine

/-- What a request for a single change makes of a disk. -/
def Request.change? (machine : Machine) : Request → Option (Except SystemError Disk)
  | .makeDirectory path => some (machine.disk.makeDirectory machine.working path)
  | .createFile path => some (machine.disk.createFile machine.working path)
  | .write path contents => some (machine.disk.write machine.working path contents)
  | .rename source target => some (machine.disk.rename machine.working source target)
  | .copy source target => some (machine.disk.copy machine.working source target)
  | .removeFile path => some (machine.disk.removeFile machine.working path)
  | _ => none

/-- Whether the answer to such a request tells that outcome. -/
def Request.Tells : (request : Request) → request.Answer → Except SystemError Unit → Prop
  | .makeDirectory _, answered, outcome | .createFile _, answered, outcome
  | .write _ _, answered, outcome | .rename _ _, answered, outcome
  | .copy _ _, answered, outcome | .removeFile _, answered, outcome => answered = outcome
  | _, _, _ => False

namespace Request

/-- Where a request may change what stands, by the paths that it names. Contents are put where
links lead. A tool may do anything anywhere. -/
def Writes (machine : Machine) : Request → Location → Prop
  | .makeDirectory path, location | .createFile path, location
  | .removeFile path, location | .discardFile path, location => path.Names machine.working location
  | .rename source target, location =>
    source.Names machine.working location ∨ target.Names machine.working location
  | .write path _, location | .copy _ path, location => machine.aim path = .ok location
  | .removeTree path, location | .discardTree path, location =>
    path.Contains machine.working location
  | .call _, _ => True
  | _, _ => False

def MayMake (working : Option Location) : Request → Location → Prop
  | .makeDirectories path, location => path.OnWay working location
  | _, _ => False

def paths : Request → List Path
  | .makeDirectories path | .makeDirectory path | .createFile path | .write path _ | .read path
  | .isPresent path | .isFile path | .removeFile path | .removeTree path | .discardFile path
  | .discardTree path => [path]
  | .rename source target | .copy source target => [source, target]
  | _ => []

end Request

/-- Whether a file is written to what keeps nothing. -/
def Exchange.isLost : Exchange → Bool
  | ⟨.write path _, _, before, _⟩ => (before.find path).toOption.any (·.2 == .sink)
  | _ => false

/-- No link is met on a path of the request. -/
def Exchange.IsStraight (exchange : Exchange) : Prop :=
  ∀ path ∈ exchange.request.paths, exchange.before.StraightTo path

instance (exchange : Exchange) : Decidable exchange.IsStraight :=
  inferInstanceAs (Decidable (∀ path ∈ exchange.request.paths, _))

/-- No link is met on a path of the request, and no device where it writes. -/
structure Exchange.IsPlain (exchange : Exchange) : Prop where
  straight : exchange.IsStraight
  keeps : exchange.isLost = false

instance (exchange : Exchange) : Decidable exchange.IsPlain :=
  decidable_of_iff (exchange.IsStraight ∧ exchange.isLost = false)
    ⟨fun both => ⟨both.1, both.2⟩, fun plain => ⟨plain.1, plain.2⟩⟩

theorem Exchange.IsPlain.not_sink {before after : Machine}
    (plain : (⟨.write path contents, answered, before, after⟩ : Exchange).IsPlain) :
    before.find path ≠ .ok (location, .sink) := by
  intro found
  have kept := plain.keeps
  simp [isLost, found, Except.toOption] at kept

namespace World

variable {mishap : Mishap} {world after : World} {trace : List Exchange}

theorem answer_change {request : Request}
    (changes : request.change? world.machine = some result) :
    request.Tells (world.answer request).1 (world.machine.change result).1 ∧
      (world.answer request).2.machine = (world.machine.change result).2 := by
  cases request <;> cases changes <;> exact ⟨rfl, rfl⟩

theorem runs_change {request : Request} {answered : request.Answer}
    (changes : request.change? world.machine = some result)
    (ran : Runs mishap world (Program.request request) trace answered after) :
    (∃ cause, request.Tells answered (.error cause) ∧
        (mishap.IsClean → after.machine = world.machine)) ∨
      ∃ disk, result = .ok disk ∧ request.Tells answered (.ok ()) ∧
        after.machine = world.machine.withDisk disk := by
  rcases runs_request ran with ⟨-, rfl, rfl⟩ | ⟨cause, left, refusal, harm, rfl, -⟩
  · obtain ⟨told, left⟩ := answer_change changes
    rcases change_cases world.machine result with ⟨cause, rfl, done⟩ | ⟨disk, rfl, done⟩
    · rw [done] at told left
      exact .inl ⟨cause, told, fun _ => left⟩
    · rw [done] at told left
      exact .inr ⟨disk, rfl, told, left⟩
  · refine .inl ⟨cause, ?_, fun clean => clean _ _ _ harm⟩
    cases request <;> cases changes <;> cases refusal <;> rfl

/-- A request changes nothing but what it names. -/
theorem answer_touches (world : World) (request : Request) :
    Machine.Touches (request.Writes world.machine)
      (request.MayMake world.machine.working) world.machine
      (world.answer request).2.machine := by
  have changed {places : Location → Prop} (result : Except SystemError Disk)
      (changes : ∀ disk, result = .ok disk →
        Disk.ChangesOnly places (fun _ => False) world.machine.disk disk) :
      Machine.Touches places (fun _ => False) world.machine (world.machine.change result).2 := by
    rcases change_cases world.machine result with ⟨cause, -, done⟩ | ⟨disk, made, done⟩
    · rw [done]; exact .refl _
    · rw [done]; exact Machine.touches_withDisk (changes disk made)
  cases request with
  | makeDirectories path =>
    exact Machine.touches_withDisk (Disk.changesOnly_makeDirectories _ _ _)
  | makeDirectory path => exact changed _ fun _ => Disk.changesOnly_makeDirectory
  | createFile path => exact changed _ fun _ => Disk.changesOnly_createFile
  | write path contents => exact changed _ fun _ => Disk.changesOnly_write
  | rename source target => exact changed _ fun _ => Disk.changesOnly_rename
  | copy source target => exact changed _ fun _ => Disk.changesOnly_copy
  | removeFile path => exact changed _ fun _ => Disk.changesOnly_removeFile
  | removeTree path => exact Machine.touches_withDisk (Disk.changesOnly_removeTree _ _ _)
  | discardFile path => exact changed _ fun _ => Disk.changesOnly_removeFile
  | discardTree path => exact Machine.touches_withDisk (Disk.changesOnly_removeTree _ _ _)
  | call invocation => exact Machine.touches_withDisk fun _ => .inr (.inl trivial)
  | _ => exact .refl _

end World

end FragmentBuild
