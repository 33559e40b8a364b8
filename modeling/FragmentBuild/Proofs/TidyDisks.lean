import FragmentBuild.Proofs.Neighbours
import FragmentBuild.Proofs.Relocation
import FragmentBuild.Shelf

/-! Disks with temporary things on them. Such a disk is tidy if it would be what it is to be once
the temporary things are gone. Making, giving up, handing on and relocating such things keeps it
tidy, and so does whatever others do to these things, or beside them. -/
namespace FragmentBuild

theorem Disk.mounts_makeEach (disk : Disk) (working : Option Location) (paths : List Path) :
    (disk.makeEach working paths).2.mounts = disk.mounts := by
  refine makeEach_keeps (motive := (·.mounts = disk.mounts)) paths rfl ?_
  intro path _ before after same made
  obtain ⟨location, -, -, -, rfl, -⟩ := makeDirectory_eq_ok made
  exact same

namespace World

theorem answer_mounts (world : World) {request : Request} (isLocal : request.IsLocal) :
    (world.answer request).2.machine.disk.mounts = world.machine.disk.mounts := by
  have changed (result : Except SystemError Disk)
      (kept : ∀ disk, result = .ok disk → disk.mounts = world.machine.disk.mounts) :
      (world.machine.change result).2.disk.mounts = world.machine.disk.mounts := by
    rcases result with cause | disk
    · rfl
    · exact kept disk rfl
  have removed (path : Path) : (world.machine.disk.removeTree world.machine.working path).2.mounts =
      world.machine.disk.mounts := by
    rcases Disk.removeTree_cases world.machine.disk world.machine.working path with
      ⟨cause, refused⟩ | ⟨location, target, -, gone⟩ |
        ⟨root, -, ⟨result, emptied, -⟩ | ⟨erased, -⟩⟩
    · rw [refused]
    · rw [gone]; rfl
    · rw [emptied]; rfl
    · rw [erased]; rfl
  have erased (path : Path) : ∀ disk, world.machine.disk.removeFile world.machine.working path =
      .ok disk → disk.mounts = world.machine.disk.mounts := by
    intro disk done
    obtain ⟨location, slash, -, -, rfl⟩ := Disk.removeFile_eq_ok done
    rfl
  have written (path : Path) (contents : ByteArray) (disk : Disk)
      (done : world.machine.disk.write world.machine.working path contents = .ok disk) :
      disk.mounts = world.machine.disk.mounts := by
    obtain ⟨location, -, ⟨-, rfl⟩ | ⟨-, executable, rfl⟩⟩ := Disk.write_eq_ok done <;> rfl
  cases request with
  | makeDirectories path => exact Disk.mounts_makeEach ..
  | makeDirectory path =>
    refine changed _ fun disk done => ?_
    obtain ⟨location, -, -, -, rfl, -⟩ := Disk.makeDirectory_eq_ok done
    rfl
  | createFile path =>
    refine changed _ fun disk done => ?_
    obtain ⟨location, -, -, rfl⟩ := Disk.createFile_eq_ok done
    rfl
  | write path contents => exact changed _ (written path contents)
  | rename source target =>
    refine changed _ fun disk done => ?_
    obtain ⟨location, entry, goal, -, -, -, -, rfl⟩ := Disk.rename_eq_ok done
    split <;> rfl
  | copy source target =>
    refine changed _ fun disk done => ?_
    obtain ⟨_, contents, executable, goal, -, -, ⟨-, rfl⟩ | ⟨-, rfl⟩⟩ := Disk.copy_eq_ok done <;>
      rfl
  | removeFile path => exact changed _ (erased path)
  | discardFile path => exact changed _ (erased path)
  | removeTree path => exact removed path
  | discardTree path => exact removed path
  | call invocation => exact isLocal.elim
  | _ => rfl

theorem answer_isTree_local (world : World) {request : Request} (isLocal : request.IsLocal)
    (tree : world.machine.disk.IsTree) : (world.answer request).2.machine.disk.IsTree := by
  have idle := answer_isTree
    { world with tool := fun _ machine => (.error .notFound, machine.disk) } request
    (fun _ _ => id) tree
  cases request with
  | call invocation => exact isLocal.elim
  | _ => exact idle

/-- A program that calls no tool leaves a tree, and mounts nothing. -/
theorem Runs.settled {mishap : Mishap} (clean : mishap.IsClean) {program : Program α}
    (asks : program.Asks Request.IsLocal)
    (ran : Runs mishap world program trace value after) (tree : world.machine.disk.IsTree) :
    after.machine.disk.IsTree ∧ after.machine.disk.mounts = world.machine.disk.mounts := by
  induction ran with
  | done => exact ⟨tree, rfl⟩
  | answered ran ih =>
    obtain ⟨left, same⟩ := ih (asks.2 _) (answer_isTree_local _ asks.1 tree)
    exact ⟨left, same.trans (answer_mounts _ asks.1)⟩
  | refused refusal harm ran ih =>
    obtain rfl := clean _ _ _ harm
    exact ih (asks.2 _) tree

end World

namespace Path

/-- Whether a path leads to a directory or through it, or through something in it. Once the
directory is gone, such a path leads nowhere. -/
def LeadsInto (path directory : Path) : Prop :=
  ∃ location ∈ path.way, directory.place <+: location

theorem IsWhole.of_child {root path : Path} (plain : slashByte ∉ (name : OsText).toList)
    (isWhole : (root.child name).IsWhole working path) :
    ∃ whole, root.IsWhole working whole ∧ path = whole.child name := by
  obtain ⟨absolute, rfl | ⟨here, stands, rfl⟩⟩ := isWhole
  · exact ⟨root, ⟨(isAbsolute_child root plain).symm.trans absolute, .inl rfl⟩, rfl⟩
  · refine ⟨(Machine.locationPath here).join root, ⟨?_, .inr ⟨here, stands, rfl⟩⟩,
      join_child _ _ plain⟩
    exact isAbsolute_join _ _ (World.isAbsolute_locationPath here)

/-- Whether a directory can be removed under a path: the path ends in a name, and does not come
back from something in the directory. -/
structure IsRemovable (path : Path) : Prop where
  named : ∀ piece, (Disk.stem path).getLast? = some piece →
    piece ≠ [dotByte] ∧ piece ≠ [dotByte, dotByte]
  straight : ∀ location ∈ passed [] (pieces path.text.toList), ¬ StrictlyBelow path.place location

end Path

theorem Disk.removeTree_of_removable {disk : Disk} (absolute : path.isAbsolute = true)
    (found : disk.find working path = .ok (path.place, .directory)) (removable : path.IsRemovable)
    (notRoot : path.place ≠ []) (unmounted : path.place ∉ disk.mounts) :
    disk.removeTree working path =
      (.ok (), (disk.eraseBelow path.place).erase path.place) := by
  obtain ⟨start, begun, -⟩ := (locate_eq_ok_iff ..).mp ((find_eq_ok_iff ..).mp found).1
  obtain rfl := Machine.origin_absolute begun absolute
  have kept : disk.losesParent working path path.place = false := by
    rw [Bool.eq_false_iff, ne_eq, losesParent_iff begun found]
    rintro ⟨visited, member, below⟩
    rcases List.mem_append.mp member with before | last
    · exact removable.straight visited before below
    · exact below.2 (List.mem_singleton.mp last).symm
  have noDot : (stem path).getLast? ≠ some [dotByte] := fun last => (removable.named _ last).1 rfl
  have noDots : (stem path).getLast? ≠ some [dotByte, dotByte] := fun last =>
    (removable.named _ last).2 rfl
  rw [removeTree_of_find found, kept, if_neg (by simp), if_neg noDot, if_neg noDots, if_neg]
  rintro (root | mounted)
  · exact notRoot root
  · exact unmounted (by simpa using mounted)

namespace Held

/-- What a slot holds, as something that is nobody else's. -/
def holding : Held → Holding
  | .source path | .archive path => .file path
  | .directory work => .tree work.path

theorem place_holding (held : Held) : held.holding.place = held.path.place := by
  cases held <;> rfl

/-- Whether it goes when it is given up. A fixed directory does not. -/
def IsUnique : Held → Prop
  | .directory (.fixed _) => False
  | _ => True

def IsFile : Held → Prop
  | .source _ | .archive _ => True
  | .directory _ => False

def IsSited (root : Path) (working : Option Location) : Held → Prop
  | .source path | .archive path => ∃ whole name, root.IsWhole working whole ∧
      Path.IsPlainName name ∧ path = whole.child name
  | .directory _ => True

end Held

/-- What somebody has on a machine: it stands where its path leads, and can be given up. -/
structure Owned (machine : Machine) (held : Held) : Prop where
  unique : held.IsUnique
  absolute : held.path.isAbsolute = true
  found : ∃ entry, machine.find held.path = .ok (held.path.place, entry)
  stands : held.holding.Stands machine.disk
  removable : ∀ work, held = .directory work → work.path.IsRemovable

namespace Owned

variable {before after machine : Machine} {held : Held}

theorem again (owned : Owned before held)
    (folders : ∀ location ∈ passed [] (pieces held.path.text.toList),
      before.disk.get? location = some .directory → after.disk.get? location = some .directory)
    (stands : held.holding.Stands after.disk) : Owned after held := by
  obtain ⟨entry, found⟩ := owned.found
  obtain ⟨-, -, passes⟩ := Machine.folders_of_find owned.absolute found
  obtain ⟨thing, there⟩ := Option.ne_none_iff_exists'.mp stands.occupied
  rw [held.place_holding] at there
  exact ⟨owned.unique, owned.absolute, ⟨thing, Machine.find_again owned.absolute found
    (fun location member => folders location member (passes location member)) there⟩, stands,
    owned.removable⟩

theorem spared (owned : Owned before held) (touches : Machine.Touches places made before after)
    (folders : ∀ location ∈ passed [] (pieces held.path.text.toList),
      before.disk.get? location = some .directory → ¬ places location)
    (place : ¬ places held.path.place) : Owned after held := by
  obtain ⟨entry, there⟩ := Option.ne_none_iff_exists'.mp owned.stands.occupied
  refine owned.again (fun location member folder =>
    touches.disk.keeps (folders location member folder) folder) (owned.stands.of_get? ?_)
  refine (touches.disk.keeps ?_ there).trans there.symm
  rw [held.place_holding]
  exact place

theorem not_inside (owned : Owned machine held)
    (member : location ∈ passed [] (pieces held.path.text.toList))
    (covers : held.holding.Covers location) : location = held.path.place := by
  cases held with
  | source path => exact covers
  | archive path => exact covers
  | directory work =>
    by_contra apart
    exact (owned.removable work rfl).straight location member ⟨covers, Ne.symm apart⟩

theorem occupied (owned : Owned machine held) :
    machine.disk.get? held.path.place ≠ none := by
  rw [← held.place_holding]
  exact owned.stands.occupied

theorem folder (owned : Owned machine held)
    (member : location ∈ passed [] (pieces held.path.text.toList)) :
    machine.disk.get? location = some .directory := by
  obtain ⟨entry, found⟩ := owned.found
  exact (Machine.folders_of_find owned.absolute found).2.2 location member

theorem passes (owned : Owned machine held) (member : location ∈ held.path.way) :
    machine.disk.get? location ≠ none := by
  rcases List.mem_append.mp member with before | last
  · rw [owned.folder before]
    exact nofun
  · rw [List.mem_singleton.mp last]
    exact owned.occupied

end Owned

/-- Something new to hold: nothing stood at its place, and but for directories on the way to the
temporary files nothing else has changed. -/
structure Arrived (root : Path) (before after : Machine) (held : Held) : Prop where
  owned : Owned after held
  sited : held.IsSited root before.working
  free : before.disk.get? held.path.place = none
  touches : Machine.Touches (· = held.path.place) (root.OnWay before.working) before after

/-- Between two machines the working directory, the mounted file systems and the directories that
lead to the temporary files have stayed. -/
structure Steady (root : Path) (before after : Machine) : Prop where
  working : after.working = before.working
  mounts : after.disk.mounts = before.disk.mounts
  ways : ∀ whole, root.IsWhole before.working whole → ∀ location ∈ whole.way,
    before.disk.get? location = some .directory → after.disk.get? location = some .directory

theorem Steady.refl (root : Path) (machine : Machine) : Steady root machine machine :=
  ⟨rfl, rfl, fun _ _ _ _ => id⟩

theorem Steady.trans {before middle after : Machine} (first : Steady root before middle)
    (second : Steady root middle after) : Steady root before after where
  working := second.working.trans first.working
  mounts := second.mounts.trans first.mounts
  ways whole isWhole location member folder :=
    second.ways whole (first.working.symm ▸ isWhole) location member
      (first.ways whole isWhole location member folder)

/-- A machine on which some things are held for a time. What stands elsewhere is what is to last,
but for directories that were made on the way to the temporary files. -/
structure Tidy (root : Path) (lasting : Disk) (live : Held → Prop) (machine : Machine) :
    Prop where
  tree : machine.disk.IsTree
  working : ∀ here, machine.working = some here →
    IsPlainLocation here ∧ lasting.get? here = some .directory
  mounts : ∀ mount ∈ machine.disk.mounts, lasting.get? mount = some .directory
  owned : ∀ held, live held → Owned machine held
  sited : ∀ held, live held → held.IsSited root machine.working
  apart : ∀ one other, live one → live other → one ≠ other →
    ∀ location ∈ other.path.way, ¬ one.holding.Covers location
  clear : ∀ work whole, live (.directory work) → root.IsWhole machine.working whole →
    ¬ whole.LeadsInto work.path
  unused : ∀ held location, live held → held.holding.Covers location →
    lasting.get? location = none
  agrees : ∀ location, (∀ held, live held → ¬ held.holding.Covers location) →
    machine.disk.get? location = lasting.get? location ∨
      root.OnWay machine.working location ∧ lasting.get? location = none ∧
        machine.disk.get? location = some .directory

namespace Tidy

open Machine (Touches)

variable {root : Path} {lasting : Disk} {live : Held → Prop} {before after machine : Machine}

theorem kept (tidy : Tidy root lasting live machine)
    (stands : lasting.get? location = some entry) :
    machine.disk.get? location = some entry := by
  have apart (held : Held) (lives : live held) : ¬ held.holding.Covers location := fun covers => by
    rw [tidy.unused held location lives covers] at stands
    cases stands
  rcases tidy.agrees location apart with same | ⟨-, free, -⟩
  · exact same.trans stands
  · rw [stands] at free
    cases free

theorem free (tidy : Tidy root lasting live machine) (free : machine.disk.get? location = none) :
    lasting.get? location = none := by
  by_contra stood
  obtain ⟨entry, stands⟩ := Option.ne_none_iff_exists'.mp stood
  rw [tidy.kept stands] at free
  cases free

theorem steady (tidy : Tidy root lasting live before) (touches : Touches places made before after)
    (mounts : after.disk.mounts = before.disk.mounts)
    (lasts : ∀ location, lasting.get? location = some .directory → ¬ places location)
    (ways : ∀ whole, root.IsWhole before.working whole → ∀ location ∈ whole.way,
      before.disk.get? location = some .directory → ¬ places location) :
    Steady root before after := by
  refine ⟨?_, mounts, fun whole isWhole location member folder =>
    touches.disk.keeps (ways whole isWhole location member folder) folder⟩
  cases here : before.working with
  | none =>
    cases there : after.working with
    | none => rfl
    | some place => exact absurd (touches.stays place there) (by rw [here]; exact nofun)
  | some place =>
    have folder := (tidy.working place here).2
    exact touches.keeps place here (tidy.kept folder) (lasts place folder)

/-- After a steady change it is enough to look at what is held and at what stands elsewhere. -/
theorem next {remaining : Held → Prop} {later : Disk} (tidy : Tidy root lasting live before)
    (steady : Steady root before after) (tree : after.disk.IsTree)
    (folders : ∀ location, lasting.get? location = some .directory →
      later.get? location = some .directory)
    (owned : ∀ held, remaining held → Owned after held)
    (sited : ∀ held, remaining held → held.IsSited root before.working)
    (apart : ∀ one other, remaining one → remaining other → one ≠ other →
      ∀ location ∈ other.path.way, ¬ one.holding.Covers location)
    (clear : ∀ work whole, remaining (.directory work) → root.IsWhole before.working whole →
      ¬ whole.LeadsInto work.path)
    (unused : ∀ held location, remaining held → held.holding.Covers location →
      later.get? location = none)
    (agrees : ∀ location, (∀ held, remaining held → ¬ held.holding.Covers location) →
      after.disk.get? location = later.get? location ∨
        root.OnWay before.working location ∧ later.get? location = none ∧
          after.disk.get? location = some .directory) :
    Tidy root later remaining after where
  tree := tree
  working here stands := by
    rw [steady.working] at stands
    exact (tidy.working here stands).imp_right (folders here)
  mounts mount member := by
    rw [steady.mounts] at member
    exact folders mount (tidy.mounts mount member)
  owned := owned
  sited held lives := steady.working ▸ sited held lives
  apart := apart
  clear work whole lives isWhole := clear work whole lives (steady.working ▸ isWhole)
  unused := unused
  agrees location free := by
    rw [steady.working]
    exact agrees location free

theorem grow (tidy : Tidy root lasting live before)
    (touches : Touches (fun _ => False) (root.OnWay before.working) before after)
    (tree : after.disk.IsTree) (mounts : after.disk.mounts = before.disk.mounts) :
    Tidy root lasting live after ∧ Steady root before after := by
  have steady := tidy.steady touches mounts (fun _ _ => id) fun _ _ _ _ _ => id
  refine ⟨tidy.next steady tree (fun _ => id)
    (fun held lives => (tidy.owned held lives).spared touches (fun _ _ _ => id) id) tidy.sited
    tidy.apart tidy.clear tidy.unused fun location apart => ?_, steady⟩
  rcases touches.disk location with same | ⟨⟨⟩⟩ | ⟨onWay, free, folder⟩
  · rw [same]
    exact tidy.agrees location apart
  · exact .inr ⟨onWay, tidy.free free, folder⟩

/-- What arrives has nothing in common with what was there. -/
theorem arrive (tidy : Tidy root lasting live before) (arrived : Arrived root before after held)
    (tree : after.disk.IsTree) (mounts : after.disk.mounts = before.disk.mounts)
    (clear : ∀ work whole, held = .directory work → root.IsWhole before.working whole →
      ¬ whole.LeadsInto work.path)
    (others : ∀ work, live (.directory work) → ¬ held.path.LeadsInto work.path) :
    Tidy root lasting (fun other => live other ∨ other = held) after ∧
      Steady root before after := by
  have unused (location : Location) (covers : held.holding.Covers location) :
      before.disk.get? location = none := by
    obtain ⟨rest, rfl⟩ := covers.below
    refine tidy.tree.free_below ?_ rest
    rw [held.place_holding]
    exact arrived.free
  have notThere (location : Location) (stands : before.disk.get? location ≠ none) :
      location ≠ held.path.place := fun same => stands (same ▸ arrived.free)
  have steady := tidy.steady arrived.touches mounts
    (fun location folder => notThere location (by rw [tidy.kept folder]; exact nofun))
    fun _ _ location _ folder => notThere location (by rw [folder]; exact nofun)
  have stays (other : Held) (lives : live other) :
      after.disk.get? other.path.place = before.disk.get? other.path.place := by
    obtain ⟨entry, there⟩ := Option.ne_none_iff_exists'.mp (tidy.owned other lives).occupied
    exact (arrived.touches.disk.keeps (notThere _ (tidy.owned other lives).occupied)
      there).trans there.symm
  refine ⟨tidy.next steady tree (fun _ => id) ?_ ?_ ?_ ?_ ?_ ?_, steady⟩
  · rintro other (lives | rfl)
    · exact (tidy.owned other lives).spared arrived.touches
        (fun location _ folder => notThere location (by rw [folder]; exact nofun))
        (notThere _ (tidy.owned other lives).occupied)
    · exact arrived.owned
  · rintro other (lives | rfl)
    · exact tidy.sited other lives
    · exact arrived.sited
  · rintro one other (lives | rfl) (livesToo | rfl) apart location member covers
    · exact tidy.apart one other lives livesToo apart location member covers
    · cases one with
      | directory work => exact others work lives ⟨location, member, covers⟩
      | source path | archive path =>
        obtain ⟨contents, executable, file⟩ := (tidy.owned _ lives).stands
        obtain rfl : location = path.place := covers
        rcases List.mem_append.mp member with within | last
        · have folder := (stays _ lives).symm.trans (arrived.owned.folder within)
          cases file.symm.trans folder
        · exact notThere _ (tidy.owned _ lives).occupied (List.mem_singleton.mp last)
    · exact (tidy.owned other livesToo).passes member (unused location covers)
    · exact apart rfl
  · rintro work whole (lives | same) isWhole
    · exact tidy.clear work whole lives isWhole
    · exact clear work whole same.symm isWhole
  · rintro other location (lives | rfl) covers
    · exact tidy.unused other location lives covers
    · exact tidy.free (unused location covers)
  · intro location apart
    rcases arrived.touches.disk location with same | here | ⟨onWay, free, folder⟩
    · rw [same]
      exact tidy.agrees location fun other lives => apart other (.inl lives)
    · refine absurd ?_ (apart held (.inr rfl))
      rw [here, ← held.place_holding]
      exact held.holding.covers_place
    · exact .inr ⟨onWay, tidy.free free, folder⟩

theorem steady_within (tidy : Tidy root lasting live before) (lives : live held)
    (touches : Touches held.holding.Covers made before after)
    (mounts : after.disk.mounts = before.disk.mounts) : Steady root before after := by
  refine tidy.steady touches mounts (fun location folder covers => ?_)
    fun whole isWhole location member folder covers => ?_
  · rw [tidy.unused held location lives covers] at folder
    cases folder
  · cases held with
    | directory work => exact tidy.clear work whole lives isWhole ⟨location, member, covers⟩
    | source path | archive path =>
      obtain ⟨contents, executable, file⟩ := (tidy.owned _ lives).stands
      rw [show location = path.place from covers] at folder
      cases file.symm.trans folder

theorem owned_within (tidy : Tidy root lasting live before) (lives : live held)
    (touches : Touches held.holding.Covers made before after) (livesToo : live other)
    (apart : other ≠ held) : Owned after other := by
  have spared := tidy.apart held other lives livesToo apart.symm
  exact (tidy.owned other livesToo).spared touches
    (fun location member _ => spared location (List.mem_append_left _ member))
    (spared _ other.path.place_mem_way)

theorem giveUp (tidy : Tidy root lasting live before) (lives : live held)
    (touches : Touches held.holding.Covers (fun _ => False) before after)
    (gone : ∀ location, held.holding.Covers location → after.disk.get? location = none)
    (tree : after.disk.IsTree) (mounts : after.disk.mounts = before.disk.mounts) :
    Tidy root lasting (fun other => live other ∧ other ≠ held) after ∧
      Steady root before after := by
  have steady := tidy.steady_within lives touches mounts
  refine ⟨tidy.next steady tree (fun _ => id)
    (fun other first => tidy.owned_within lives touches first.1 first.2)
    (fun other first => tidy.sited other first.1)
    (fun one other first second => tidy.apart one other first.1 second.1)
    (fun work whole first => tidy.clear work whole first.1)
    (fun other location first => tidy.unused other location first.1) fun location free => ?_,
    steady⟩
  by_cases covers : held.holding.Covers location
  · exact .inl ((gone location covers).trans (tidy.unused held location lives covers).symm)
  · rcases touches.disk location with same | within | ⟨⟨⟩, -⟩
    · rw [same]
      refine tidy.agrees location fun other livesToo => ?_
      by_cases same : other = held
      · exact same ▸ covers
      · exact free other ⟨livesToo, same⟩
    · exact absurd within covers

theorem handOn (tidy : Tidy root lasting live machine) (lives : live held)
    (file : held.holding = .file held.path)
    (stands : machine.disk.get? held.path.place = some entry) (thing : entry ≠ .directory) :
    Tidy root (lasting.put held.path.place entry) (fun other => live other ∧ other ≠ held)
      machine := by
  have notRoot := Disk.ne_root_of_not_directory machine.disk (by rw [stands]; simpa using thing)
  have none := tidy.unused held held.path.place lives (by rw [file]; exact rfl)
  refine tidy.next (.refl root machine) tidy.tree (fun location folder => ?_)
    (fun other first => tidy.owned other first.1) (fun other first => tidy.sited other first.1)
    (fun one other first second => tidy.apart one other first.1 second.1)
    (fun work whole first => tidy.clear work whole first.1)
    (fun other location first covers => ?_) fun location free => ?_
  · rw [Disk.get?_put_of_ne _ _ (by rintro rfl; rw [none] at folder; cases folder), folder]
  · rw [Disk.get?_put_of_ne _ _ ?_, tidy.unused other location first.1 covers]
    rintro rfl
    exact tidy.apart other held first.1 lives first.2 _ held.path.place_mem_way covers
  · by_cases here : location = held.path.place
    · rw [here, stands, Disk.get?_put, if_neg notRoot, if_pos rfl]
      exact .inl rfl
    · rw [Disk.get?_put_of_ne _ _ here]
      refine tidy.agrees location fun other livesToo covers => ?_
      by_cases same : other = held
      · rw [same, file] at covers
        exact here covers
      · exact free other ⟨livesToo, same⟩ covers

/-- Others may do anything with what is held, as long as it stands. -/
theorem use {disk : Disk} (tidy : Tidy root lasting live machine) (lives : live held)
    (changes : Disk.ChangesOnly held.holding.Covers (fun _ => False) machine.disk disk)
    (stands : held.holding.Stands disk) (tree : disk.IsTree)
    (mounts : disk.mounts = machine.disk.mounts) :
    Tidy root lasting live (machine.withDisk disk) ∧
      Steady root machine (machine.withDisk disk) := by
  have touches := Machine.touches_withDisk changes
  have steady := tidy.steady_within lives touches mounts
  have owned := tidy.owned held lives
  refine ⟨tidy.next steady tree (fun _ => id) (fun other livesToo => ?_) tidy.sited tidy.apart
    tidy.clear tidy.unused fun location apart => ?_, steady⟩
  · by_cases same : other = held
    · subst same
      refine owned.again (fun location member folder => ?_) stands
      by_cases covers : other.holding.Covers location
      · obtain rfl := owned.not_inside member covers
        cases other with
        | directory work => exact stands
        | source path | archive path =>
          obtain ⟨contents, executable, file⟩ := owned.stands
          cases file.symm.trans folder
      · exact changes.keeps covers folder
    · exact tidy.owned_within lives touches livesToo same
  · rcases changes location with same | within | ⟨⟨⟩, -⟩
    · have agrees := tidy.agrees location apart
      rw [← same] at agrees
      exact agrees
    · exact absurd within (apart held lives)

/-- Others may put something where nothing stands and nothing is held. -/
theorem add (tidy : Tidy root lasting live machine) (free : machine.disk.get? location = none)
    (parent : machine.disk.get? location.dropLast = some .directory) (entry : DiskEntry)
    (outside : ∀ held, live held → ¬ held.holding.Covers location) :
    Tidy root (lasting.put location entry) live
        (machine.withDisk (machine.disk.put location entry)) ∧
      Steady root machine (machine.withDisk (machine.disk.put location entry)) := by
  have notRoot := Disk.ne_root_of_not_directory machine.disk (by rw [free]; exact nofun)
  have notThere (other : Location) (stands : machine.disk.get? other ≠ none) :
      other ≠ location := fun same => stands (same ▸ free)
  have touches : Touches (· = location) (fun _ => False) machine
      (machine.withDisk (machine.disk.put location entry)) :=
    Machine.touches_withDisk (Disk.changesOnly_put _ _ _)
  have steady := tidy.steady touches rfl
    (fun other folder => notThere other (by rw [tidy.kept folder]; exact nofun))
    fun _ _ other _ folder => notThere other (by rw [folder]; exact nofun)
  refine ⟨tidy.next steady (tidy.tree.put parent fun folder => by rw [free] at folder; cases folder)
    (fun other folder => ?_) (fun held lives => ?_) tidy.sited tidy.apart tidy.clear
    (fun held other lives covers => ?_) fun other apart => ?_, steady⟩
  · rw [Disk.get?_put_of_ne _ _ (notThere other (by rw [tidy.kept folder]; exact nofun)), folder]
  · exact (tidy.owned held lives).spared touches
      (fun other _ folder => notThere other (by rw [folder]; exact nofun))
      (notThere _ (tidy.owned held lives).occupied)
  · rw [Disk.get?_put_of_ne _ _ (by rintro rfl; exact outside held lives covers)]
    exact tidy.unused held other lives covers
  · by_cases here : other = location
    · subst here
      simp [Machine.withDisk, Disk.get?_put, notRoot]
    · rw [Machine.withDisk, Disk.get?_put_of_ne _ _ here, Disk.get?_put_of_ne _ _ here]
      exact tidy.agrees other apart

theorem not_leadsInto (tidy : Tidy root lasting live machine) (lives : live (.directory work))
    (isWhole : root.IsWhole machine.working whole) (plain : Path.IsPlainName name)
    (apart : (whole.child name).place ≠ work.path.place) :
    ¬ (whole.child name).LeadsInto work.path := by
  rintro ⟨location, member, inside⟩
  rcases Path.mem_way_child plain.plain member with onWay | rfl
  · exact tidy.clear work whole lives isWhole ⟨location, onWay, inside⟩
  · rw [Path.place_child whole plain, List.prefix_concat_iff] at inside
    rcases inside with same | above
    · exact apart ((Path.place_child whole plain).trans same.symm)
    · exact tidy.clear work whole lives isWhole ⟨whole.place, whole.place_mem_way, above⟩

theorem not_covers_of_relocation (tidy : Tidy root lasting live before)
    (relocation : Relocation root built place file before after path location)
    (lives : live other) : ¬ other.holding.Covers location := by
  have apart : other.path.place ≠ location := by
    rintro rfl
    exact (tidy.owned other lives).occupied relocation.wasNew.2
  obtain ⟨folder, name, -, -, plain, isWhole⟩ := relocation.inRoot
  obtain ⟨whole, wholeRoot, rfl⟩ := isWhole.of_child plain.plain
  have there : location = (whole.child name).place := Machine.locate_of_absolute isWhole.1
    ((Machine.find_eq_ok_iff ..).mp relocation.found).1
  intro covers
  cases other with
  | directory work =>
    refine tidy.not_leadsInto lives wholeRoot plain (fun same => apart ?_)
      ⟨_, Path.place_mem_way _, there ▸ covers⟩
    exact same.symm.trans there.symm
  | source path | archive path => exact apart covers.symm

/-- A file that was relocated lasts, and its original does not. -/
theorem relocate (tidy : Tidy root lasting live before)
    (held : before.find built = .ok (place, .file contents executable))
    (relocation : Relocation root built place (.file contents executable) before after path
      location)
    (unheld : ∀ other, live other → other.path.place ≠ place) (tree : after.disk.IsTree)
    (mounts : after.disk.mounts = before.disk.mounts) :
    Tidy root ((lasting.erase place).put location (.file contents executable)) live after ∧
      Steady root before after := by
  have stands := ((Machine.find_eq_ok_iff ..).mp held).2
  have free := relocation.wasNew.2
  have touches := relocation.others
  have notRoot := Disk.ne_root_of_not_directory before.disk (by rw [stands]; exact nofun)
  have notRootToo := Disk.ne_root_of_not_directory before.disk (by rw [free]; exact nofun)
  have notThere (other : Location) (there : before.disk.get? other ≠ none) :
      other ≠ location := fun same => there (same ▸ free)
  have gone : (lasting.erase place).get? place = none := by
    rw [Disk.get?_erase, if_neg notRoot, if_pos rfl]
  have folders (other : Location) (folder : before.disk.get? other = some .directory) :
      ¬ (other = place ∨ other = location) := by
    rintro (rfl | rfl)
    · cases stands.symm.trans folder
    · cases free.symm.trans folder
  have steady := tidy.steady touches mounts
    (fun other folder => folders other (tidy.kept folder))
    fun _ _ other _ folder => folders other folder
  refine ⟨tidy.next steady tree (fun other folder => ?_) (fun other lives => ?_) tidy.sited
    tidy.apart tidy.clear (fun other there lives covers => ?_) fun other apart => ?_, steady⟩
  · have spared := folders other (tidy.kept folder)
    rw [Disk.get?_put_of_ne _ _ fun same => spared (.inr same),
      Disk.get?_erase_of_ne _ fun same => spared (.inl same), folder]
  · refine (tidy.owned other lives).spared touches (fun there _ => folders there) ?_
    rintro (same | same)
    · exact unheld other lives same
    · exact notThere _ (tidy.owned other lives).occupied same
  · have apart : there ≠ location := by
      rintro rfl
      exact tidy.not_covers_of_relocation relocation lives covers
    rw [Disk.get?_put_of_ne _ _ apart]
    by_cases original : there = place
    · rw [original, gone]
    · rw [Disk.get?_erase_of_ne _ original, tidy.unused other there lives covers]
  · obtain ⟨disk, -, outcome⟩ := relocation.outcome
    by_cases here : other = location
    · subst here
      exact .inl (((Machine.find_eq_ok_iff ..).mp relocation.found).2.trans
        (by rw [Disk.get?_put, if_neg notRootToo, if_pos rfl]))
    rw [Disk.get?_put_of_ne _ _ here]
    by_cases original : other = place
    · rw [original, gone, outcome place, if_pos rfl]
      exact .inl rfl
    rw [Disk.get?_erase_of_ne _ original]
    rcases touches.disk other with same | (original' | here') | ⟨onWay, none, folder⟩
    · rw [same]
      exact tidy.agrees other apart
    · exact absurd original' original
    · exact absurd here' here
    · exact .inr ⟨onWay, tidy.free none, folder⟩

end Tidy

/-- A file that has been handed on: it is to last, and it stands under its path. -/
structure LastingFile (root : Path) (lasting : Disk) (machine : Machine) (path : Path)
    (contents : ByteArray) (executable : Bool) : Prop where
  absolute : path.isAbsolute = true
  found : machine.find path = .ok (path.place, .file contents executable)
  lasts : lasting.get? path.place = some (.file contents executable)
  sited : ∃ whole name, root.IsWhole machine.working whole ∧ Path.IsPlainName name ∧
    path = whole.child name

theorem LastingFile.again {before after : Machine}
    (lastingFile : LastingFile root lasting before path contents executable)
    (steady : Steady root before after) (tidy : Tidy root later live after)
    (lasts : later.get? path.place = some (.file contents executable)) :
    LastingFile root later after path contents executable := by
  obtain ⟨-, -, folders⟩ := Machine.folders_of_find lastingFile.absolute lastingFile.found
  obtain ⟨whole, name, isWhole, plain, rfl⟩ := lastingFile.sited
  refine ⟨lastingFile.absolute, Machine.find_again lastingFile.absolute lastingFile.found
    (fun location member => ?_) (tidy.kept lasts), lasts, whole, name,
    steady.working ▸ isWhole, plain, rfl⟩
  exact steady.ways whole isWhole location
    ((Path.mem_passed_child_iff whole plain.plain).mp member) (folders location member)

end FragmentBuild
