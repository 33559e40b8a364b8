import FragmentBuild.Proofs.DiskRequests
import FragmentBuild.World

/-! Paths on a machine. A change that keeps directories keeps the working directory and with
it the meaning of every path that led somewhere. -/
namespace FragmentBuild

/-- Every location that a path leads through, and the one it leads to. -/
def Path.trail (start : Location) (path : Path) : List Location :=
  passed start (pieces path.text.toList) ++ [destination start (pieces path.text.toList)]

namespace Machine

variable {machine : Machine} {disk : Disk} {working : Option Location}

def locate (machine : Machine) (path : Path) : Except SystemError Location :=
  machine.disk.locate machine.working path

def find (machine : Machine) (path : Path) : Except SystemError (Location × DiskEntry) :=
  machine.disk.find machine.working path

/-- Where a path and the links at its end lead. -/
def aim (machine : Machine) (path : Path) : Except SystemError Location :=
  machine.disk.aim machine.working path

def reach (machine : Machine) (path : Path) : Except SystemError (Location × DiskEntry) :=
  machine.disk.reach machine.working path

/-- The machine once a directory has been made with those that lead to it, as far as they are
missing. -/
def withDirectory (machine : Machine) (path : Path) : Machine :=
  machine.withDisk (machine.disk.makeDirectories machine.working path).2

def isFile (machine : Machine) (path : Path) : Bool :=
  machine.disk.isFile machine.working path

theorem find_eq_ok_iff (machine : Machine) (path : Path) :
    machine.find path = .ok (location, entry) ↔
      machine.locate path = .ok location ∧ machine.disk.get? location = some entry :=
  Disk.find_eq_ok_iff ..

theorem isFile_iff (machine : Machine) (path : Path) :
    machine.isFile path = true ↔
      ∃ location contents executable,
        machine.reach path = .ok (location, .file contents executable) :=
  Disk.isFile_iff ..

theorem reach_eq_ok_iff (machine : Machine) (path : Path) :
    machine.reach path = .ok (location, entry) ↔
      machine.aim path = .ok location ∧ machine.disk.get? location = some entry :=
  Disk.reach_eq_ok_iff ..

theorem aim_of_locate {machine : Machine} (leads : machine.locate path = .ok location)
    (plain : ∀ target, machine.disk.get? location ≠ some (.link target)) :
    machine.aim path = .ok location :=
  Disk.aim_of_locate leads plain

theorem reach_of_find {machine : Machine}
    (found : machine.find path = .ok (location, .file contents executable)) :
    machine.reach path = .ok (location, .file contents executable) :=
  Disk.reach_of_find found

def IsLink (machine : Machine) (path : Path) : Prop :=
  ∃ location target, machine.find path = .ok (location, .link target)

instance (machine : Machine) (path : Path) : Decidable (machine.IsLink path) :=
  decidable_of_iff (∃ thing ∈ (machine.find path).toOption, thing.2.isLink = true) <| by
    cases found : machine.find path with
    | error cause => simp [IsLink, found, Except.toOption]
    | ok thing =>
      obtain ⟨location, entry⟩ := thing
      cases entry <;> simp [IsLink, found, Except.toOption, DiskEntry.isLink]

/-- No link stands where a path leads or on the way there. -/
def StraightTo (machine : Machine) (path : Path) : Prop :=
  ∀ start, Disk.origin machine.working path = .ok start → ∀ visited ∈ path.trail start,
    ∀ target, machine.disk.get? visited ≠ some (.link target)

instance (machine : Machine) (path : Path) : Decidable (machine.StraightTo path) :=
  decidable_of_iff (∀ start ∈ (Disk.origin machine.working path).toOption,
      ∀ visited ∈ path.trail start, (machine.disk.get? visited).all (!·.isLink)) <| by
    cases begun : Disk.origin machine.working path with
    | error cause => simp [StraightTo, begun, Except.toOption]
    | ok start =>
      simp only [StraightTo, begun, Except.toOption, Option.mem_def, Option.some.injEq,
        Except.ok.injEq, forall_eq']
      refine forall₂_congr fun visited member => ?_
      cases machine.disk.get? visited with
      | none => simp
      | some entry => cases entry <;> simp [DiskEntry.isLink]

theorem StraightTo.not_link {machine : Machine} (straight : machine.StraightTo path) :
    ¬ machine.IsLink path := by
  rintro ⟨location, target, found⟩
  obtain ⟨leads, stands⟩ := (find_eq_ok_iff ..).mp found
  obtain ⟨start, begun, followed⟩ := (Disk.locate_eq_ok_iff ..).mp leads
  have here := ((Disk.walk_eq_ok_iff ..).mp followed).2.2
  exact straight start begun location (by simp [Path.trail, here]) target stands

theorem reach_cases {machine : Machine} (reached : machine.reach path = .ok (location, entry)) :
    machine.find path = .ok (location, entry) ∨ machine.IsLink path :=
  Disk.reach_cases reached

/-- Where a path leads to a regular file, there is one, or a link. -/
theorem found_of_isFile {machine : Machine} (isFile : machine.isFile path = true) :
    ∃ place entry, machine.find path = .ok (place, entry) ∧ entry ≠ .directory ∧
      ((∃ contents executable, entry = .file contents executable) ∨
        ∃ target, entry = .link target) := by
  obtain ⟨target, contents, executable, reached⟩ := (isFile_iff ..).mp isFile
  rcases reach_cases reached with found | ⟨place, goal, link⟩
  · exact ⟨_, _, found, nofun, .inl ⟨_, _, rfl⟩⟩
  · exact ⟨_, _, link, nofun, .inr ⟨_, rfl⟩⟩

theorem StraightTo.find {machine : Machine} (straight : machine.StraightTo path)
    (reached : machine.reach path = .ok (location, entry)) :
    machine.find path = .ok (location, entry) :=
  (reach_cases reached).resolve_right straight.not_link

theorem StraightTo.locate {machine : Machine} (straight : machine.StraightTo path)
    (aimed : machine.aim path = .ok location) : machine.locate path = .ok location := by
  obtain ⟨here, leads, followed⟩ := (Disk.aim_eq_ok_iff ..).mp aimed
  have plain (target : Path) (link : machine.disk.get? here = some (.link target)) : False :=
    straight.not_link ⟨here, target, (find_eq_ok_iff ..).mpr ⟨leads, link⟩⟩
  rw [Disk.follow_of_not_link _ plain] at followed
  cases followed
  exact leads

theorem isFile_of_find {machine : Machine}
    (found : machine.find path = .ok (location, .file contents executable)) :
    machine.isFile path = true :=
  Disk.isFile_of_find found

theorem origin_filter (working : Option Location) (holds : Location → Bool) (path : Path)
    (kept : path.isAbsolute = true ∨ ∀ here, working = some here → holds here = true) :
    Disk.origin (working.filter holds) path = Disk.origin working path := by
  rcases kept with absolute | kept
  · simp [Disk.origin, absolute]
  · cases working with
    | none => rfl
    | some here => simp [Option.filter, kept here rfl]

theorem origin_relative (begun : Disk.origin working path = .ok start)
    (relative : path.isAbsolute = false) : working = some start := by
  simp only [Disk.origin] at begun
  repeat' split at begun
  all_goals simp_all

theorem origin_absolute (begun : Disk.origin working path = .ok start)
    (absolute : path.isAbsolute = true) : start = [] := by
  simp only [Disk.origin, absolute] at begun
  repeat' split at begun
  all_goals simp_all

theorem origin_of_filter {holds : Location → Bool}
    (begun : Disk.origin (working.filter holds) path = .ok start) :
    Disk.origin working path = .ok start := by
  refine (origin_filter working holds path ?_).symm.trans begun
  cases absolute : path.isAbsolute with
  | true => exact .inl rfl
  | false =>
    have left : working.filter holds = some start := origin_relative begun absolute
    refine .inr fun here stands => ?_
    rw [stands, Option.filter_eq_some_iff] at left
    obtain ⟨same, holds⟩ := left
    cases same
    exact holds

theorem locate_filter (found : disk.locate working path = .ok location) :
    disk.locate (working.filter disk.holds) path = .ok location := by
  obtain ⟨start, begun, followed⟩ := (Disk.locate_eq_ok_iff ..).mp found
  refine (Disk.locate_eq_ok_iff ..).mpr ⟨start, ?_, followed⟩
  refine (origin_filter working disk.holds path ?_).trans begun
  cases absolute : path.isAbsolute with
  | true => exact .inl rfl
  | false =>
    refine .inr fun here stands => ?_
    rw [origin_relative begun absolute] at stands
    cases stands
    have directories := ((Disk.walk_eq_ok_iff ..).mp followed).1
    obtain ⟨piece, more, shape⟩ := List.exists_cons_of_ne_nil (pieces_ne_nil path.text.toList)
    have first := directories start (by simp [shape, passed])
    simp [Disk.holds, first]

theorem locate_eq_ok_iff (machine : Machine) (path : Path) :
    machine.locate path = .ok location ↔
      ∃ start, Disk.origin machine.working path = .ok start ∧
        machine.disk.walk start (pieces path.text.toList) = .ok location :=
  Disk.locate_eq_ok_iff ..

theorem locate_of_absolute {machine : Machine} (absolute : path.isAbsolute = true)
    (leads : machine.locate path = .ok location) :
    location = destination [] (pieces path.text.toList) := by
  obtain ⟨start, begun, followed⟩ := (locate_eq_ok_iff ..).mp leads
  rw [← ((Disk.walk_eq_ok_iff ..).mp followed).2.2, origin_absolute begun absolute]

theorem locate_withDisk_absolute (machine : Machine) (disk : Disk)
    (absolute : path.isAbsolute = true) :
    (machine.withDisk disk).locate path = disk.locate machine.working path := by
  have same := origin_filter machine.working disk.holds path (.inl absolute)
  simp only [locate, withDisk, Disk.locate, same]

theorem locate_withDisk (keeps : Disk.KeepsDirectories machine.disk disk)
    (found : machine.locate path = .ok location) :
    (machine.withDisk disk).locate path = .ok location :=
  locate_filter (Disk.locate_mono keeps found)

theorem find_withDisk (keeps : Disk.KeepsDirectories machine.disk disk)
    (found : machine.locate path = .ok location) (stands : disk.get? location = some entry) :
    (machine.withDisk disk).find path = .ok (location, entry) :=
  (find_eq_ok_iff ..).mpr ⟨locate_withDisk keeps found, stands⟩

theorem aim_filter (leads : disk.aim working path = .ok location) :
    disk.aim (working.filter disk.holds) path = .ok location := by
  obtain ⟨here, leads, followed⟩ := (Disk.aim_eq_ok_iff ..).mp leads
  exact (Disk.aim_eq_ok_iff ..).mpr ⟨here, locate_filter leads, followed⟩

theorem aim_withDisk (keeps : Disk.KeepsDirectories machine.disk disk)
    (links : ∀ location target, machine.disk.get? location = some (.link target) →
      disk.get? location = some (.link target))
    (plain : ∀ target, disk.get? location ≠ some (.link target))
    (leads : machine.aim path = .ok location) :
    (machine.withDisk disk).aim path = .ok location := by
  obtain ⟨here, leads, followed⟩ := (Disk.aim_eq_ok_iff ..).mp leads
  exact aim_filter ((Disk.aim_eq_ok_iff ..).mpr
    ⟨here, Disk.locate_mono keeps leads, Disk.follow_mono keeps links plain followed⟩)

/-- Only directories and links decide where a path leads by its links. -/
theorem aim_withDisk_iff
    (directories : ∀ folder, disk.get? folder = some .directory ↔
      machine.disk.get? folder = some .directory)
    (links : ∀ location target, disk.get? location = some (.link target) ↔
      machine.disk.get? location = some (.link target)) :
    (machine.withDisk disk).aim path = .ok location ↔ machine.aim path = .ok location := by
  constructor
  · intro leads
    obtain ⟨here, leads, followed⟩ := (Disk.aim_eq_ok_iff ..).mp leads
    obtain ⟨start, begun, walked⟩ := (locate_eq_ok_iff ..).mp leads
    refine (Disk.aim_eq_ok_iff ..).mpr ⟨here, (locate_eq_ok_iff ..).mpr ⟨start,
      origin_of_filter begun, Disk.walk_mono (fun folder => (directories folder).mp) walked⟩,
      Disk.follow_mono (fun folder => (directories folder).mp) (fun other target =>
        (links other target).mp) (fun target => ?_) followed⟩
    rw [ne_eq, ← links]
    exact Disk.not_link_of_follow followed target
  · intro leads
    refine aim_withDisk (fun folder => (directories folder).mpr)
      (fun other target => (links other target).mpr) (fun target => ?_) leads
    obtain ⟨_, -, followed⟩ := (Disk.aim_eq_ok_iff ..).mp leads
    rw [ne_eq, links]
    exact Disk.not_link_of_follow followed target

theorem reach_of_taken
    (keeps : ∀ location entry, disk.get? location = some entry →
      machine.disk.get? location = some entry)
    (reached : (machine.withDisk disk).reach path = .ok (location, entry)) :
    machine.reach path = .ok (location, entry) := by
  obtain ⟨leads, stands⟩ := (reach_eq_ok_iff ..).mp reached
  obtain ⟨here, leads, followed⟩ := (Disk.aim_eq_ok_iff ..).mp leads
  obtain ⟨start, begun, walked⟩ := (locate_eq_ok_iff ..).mp leads
  have directories : Disk.KeepsDirectories disk machine.disk :=
    fun folder => keeps folder .directory
  have noLink (target : Path) : machine.disk.get? location ≠ some (.link target) := by
    rw [keeps location entry stands, ← stands]
    exact Disk.not_link_of_follow followed target
  refine (reach_eq_ok_iff ..).mpr ⟨(Disk.aim_eq_ok_iff ..).mpr ⟨here, ?_,
    Disk.follow_mono directories (fun other target => keeps other _) noLink followed⟩,
    keeps location entry stands⟩
  exact (locate_eq_ok_iff ..).mpr ⟨start, origin_of_filter begun, Disk.walk_mono directories walked⟩

theorem isFile_of_taken
    (keeps : ∀ location entry, disk.get? location = some entry →
      machine.disk.get? location = some entry)
    (isFile : (machine.withDisk disk).isFile path = true) : machine.isFile path = true := by
  obtain ⟨location, contents, executable, reached⟩ := (isFile_iff ..).mp isFile
  exact (isFile_iff ..).mpr ⟨location, contents, executable, reach_of_taken keeps reached⟩

/-- Everything that was found is still found, and no link is new. -/
structure Grows (before after : Machine) : Prop where
  disk : Disk.Grows before.disk after.disk
  leads : ∀ path location, before.locate path = .ok location → after.locate path = .ok location

theorem Grows.trans (first : Grows before middle) (second : Grows middle after) :
    Grows before after :=
  ⟨first.disk.trans second.disk, fun _ _ found => second.leads _ _ (first.leads _ _ found)⟩

theorem Grows.find (grows : Grows before after)
    (found : before.find path = .ok (location, entry)) :
    after.find path = .ok (location, entry) := by
  obtain ⟨leads, stands⟩ := (find_eq_ok_iff ..).mp found
  exact (find_eq_ok_iff ..).mpr ⟨grows.leads _ _ leads, grows.disk.keeps _ _ stands⟩

theorem grows_withDisk (grows : Disk.Grows machine.disk disk) :
    Grows machine (machine.withDisk disk) :=
  ⟨grows, fun _ _ found => locate_withDisk grows.keepsDirectories found⟩

theorem textAt?_of_reach
    (reached : machine.reach path = .ok (location, .file text.toUTF8 executable)) :
    machine.textAt? path = some text := by
  have contents : machine.read path = .ok text.toUTF8 := Disk.read_of_reach reached
  have valid : text.toUTF8.IsValidUTF8 := text.isValidUTF8
  simp only [textAt?, contents, String.fromUTF8?, dif_pos valid]
  rfl

end Machine

end FragmentBuild
