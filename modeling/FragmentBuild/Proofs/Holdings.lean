import Mathlib.Data.List.DropRight
import FragmentBuild.Processes
import FragmentBuild.Proofs.Cleanup
import FragmentBuild.Proofs.ToolReads

/-! What a program on a shared disk has for itself: files and directories that it made under
names that nobody used. As long as the others leave these alone, and the directories that lead
to them, they are found as they were left. -/
namespace FragmentBuild

namespace Path

theorem place_child (base : Path) (plain : IsPlainName name) :
    (base.child name).place = base.place ++ [name] :=
  destination_child [] base plain

def way (path : Path) : List Location := passed [] (pieces path.text.toList) ++ [path.place]

theorem place_mem_way (path : Path) : path.place ∈ path.way :=
  List.mem_append_right _ List.mem_cons_self

theorem mem_way_iff (base : Path) :
    location ∈ base.way ↔ location ∈ passed [] base.trunk ∨ location = base.place := by
  rw [way, List.mem_append, List.mem_singleton]
  by_cases last : (pieces base.text.toList).getLast? = some []
  · obtain ⟨front, split⟩ := List.getLast?_eq_some_iff.mp last
    have trunk : base.trunk = front := by rw [trunk, if_pos last, split, List.dropLast_concat]
    have place : destination [] front = base.place := by
      rw [← trunk, destination_trunk]
      rfl
    rw [trunk, split, passed_append, List.mem_append, place]
    simp [passed]
  · rw [trunk, if_neg last]

theorem mem_passed_child_iff (base : Path) (plain : slashByte ∉ (name : OsText).toList) :
    location ∈ passed [] (pieces (base.child name).text.toList) ↔ location ∈ base.way := by
  rw [pieces_child base plain, passed_append, List.mem_append, destination_trunk, mem_way_iff]
  simp [passed, place]

theorem mem_way_child {base : Path} (plain : slashByte ∉ (name : OsText).toList)
    (member : location ∈ (base.child name).way) :
    location ∈ base.way ∨ location = (base.child name).place := by
  rcases List.mem_append.mp member with before | last
  · exact .inl ((mem_passed_child_iff base plain).mp before)
  · exact .inr (List.mem_singleton.mp last)

theorem names_place {path : Path} (absolute : path.isAbsolute = true)
    (working : Option Location) : path.Names working location ↔ location = path.place :=
  names_of_absolute absolute

theorem contains_place {path : Path} (absolute : path.isAbsolute = true)
    (working : Option Location) : path.Contains working location ↔ path.place <+: location := by
  simp only [Contains, names_place absolute, exists_eq_left]

/-- What is asked for under a path is looked for under the whole path, as long as there is a
working directory. -/
structure Becomes (working : Option Location) (path whole : Path) : Prop where
  absolute : whole.isAbsolute = true
  own : path.isAbsolute = true → whole = path
  below : path.isAbsolute = false → ∀ here, working = some here →
    whole = (Machine.locationPath here).join path

theorem Becomes.of_absolute {path : Path} (absolute : path.isAbsolute = true)
    (working : Option Location) : path.Becomes working path :=
  ⟨absolute, fun _ => rfl, fun relative => absurd (relative.symm.trans absolute) nofun⟩

theorem Becomes.of_stays (becomes : Path.Becomes working path whole)
    (stays : ∀ here, left = some here → working = some here) : path.Becomes left whole :=
  ⟨becomes.absolute, becomes.own, fun relative here stands =>
    becomes.below relative here (stays here stands)⟩

theorem eq_of_text {path other : Path} (same : path.text = other.text) : path = other := by
  cases path
  cases other
  exact congrArg Path.mk same

theorem opened_join (base : Path) (relative : path.isAbsolute = false) :
    (base.join path).opened = base.opened ++ path.opened := by
  by_cases empty : path.text = ""
  · have whole : (base.join path).text = base.opened := by
      rw [text_join base relative, empty, OsText.append_empty]
    have closed : base.opened.isEmpty ∨ base.opened.toList.getLast? = some slashByte := by
      rw [opened]
      split
      · assumption
      · exact .inr (by simp)
    have none : path.opened = "" := by simp [opened, empty]
    rw [opened, whole, if_pos closed, none, OsText.append_empty]
  · have whole := text_join base relative
    have letters : path.text.toList ≠ [] := fun none => empty (OsText.ext none)
    obtain ⟨rest, c, shape⟩ := (List.eq_nil_or_concat path.text.toList).resolve_left letters
    have last : (base.join path).text.toList.getLast? = path.text.toList.getLast? := by
      simp [whole, shape]
    have written : (base.join path).text.toList ≠ [] := by simp [whole, letters]
    by_cases slash : path.text.toList.getLast? = some slashByte
    · rw [opened, if_pos (.inr (last.trans slash)), opened.eq_1 path, if_pos (.inr slash), whole]
    · rw [opened, if_neg (by simp [written, last, slash]), opened.eq_1 path,
        if_neg (by simp [letters, slash]), whole, OsText.append_assoc]

theorem join_child (base path : Path) (plain : slashByte ∉ (name : OsText).toList) :
    base.join (path.child name) = (base.join path).child name := by
  have relative := isAbsolute_of_plain plain
  cases absolute : path.isAbsolute with
  | true =>
    have whole := (isAbsolute_child path plain).trans absolute
    rw [join, if_pos whole, join, if_pos absolute]
  | false =>
    have part := (isAbsolute_child path plain).trans absolute
    apply eq_of_text
    rw [text_join base part, child, text_join path relative, child,
      text_join (base.join path) relative, opened_join base absolute, OsText.append_assoc]

/-- What of a name leads up to its last slash, and what follows it. -/
def leading (name : OsText) : OsText := ⟨name.toList.rdropWhile (· ≠ slashByte)⟩

def lastPiece (name : OsText) : OsText := ⟨name.toList.rtakeWhile (· ≠ slashByte)⟩

theorem leading_append_lastPiece (name : OsText) : leading name ++ lastPiece name = name := by
  apply OsText.ext
  rw [leading, lastPiece, OsText.toList_append, List.rdropWhile, List.rtakeWhile,
    ← List.reverse_append, List.takeWhile_append_dropWhile, List.reverse_reverse]

theorem lastPiece_plain (name : OsText) : slashByte ∉ (lastPiece name).toList := by
  rw [lastPiece]
  intro member
  simpa using List.mem_rtakeWhile_imp member

theorem opened_leading (name : OsText) : (⟨leading name⟩ : Path).opened = leading name := by
  rw [opened, if_pos]
  by_cases none : name.toList.rdropWhile (· ≠ slashByte) = []
  · exact .inl (by rw [leading, none]; rfl)
  · have slash := List.rdropWhile_last_not (· ≠ slashByte) name.toList none
    refine .inr ?_
    rw [leading, List.getLast?_eq_getLast_of_ne_nil none]
    simpa using slash

/-- Where a name with slashes in it leads to if something is made under it. -/
def within (root : Path) (name : OsText) : Path := root.join ⟨leading name⟩

theorem child_append (root : Path) (plain : slashByte ∉ (ending : OsText).toList) (name : OsText) :
    root.child (name ++ ending) = (root.within name).child (lastPiece name ++ ending) := by
  have piece : slashByte ∉ (lastPiece name ++ ending).toList := by
    rw [OsText.toList_append, List.mem_append]
    exact fun either => either.elim (lastPiece_plain name) plain
  have named : (⟨leading name⟩ : Path).child (lastPiece name ++ ending) = ⟨name ++ ending⟩ := by
    apply eq_of_text
    rw [child, text_join _ (isAbsolute_of_plain piece), opened_leading, ← OsText.append_assoc,
      leading_append_lastPiece]
  rw [within, ← join_child root _ piece, named]
  rfl

theorem Becomes.child (becomes : Path.Becomes working path whole)
    (plain : slashByte ∉ (name : OsText).toList) :
    (path.child name).Becomes working (whole.child name) where
  absolute := (isAbsolute_child whole plain).trans becomes.absolute
  own absolute := by rw [becomes.own ((isAbsolute_child path plain).symm.trans absolute)]
  below relative here stands := by
    rw [join_child _ _ plain,
      ← becomes.below ((isAbsolute_child path plain).symm.trans relative) here stands]

end Path

/-- What a program has made for itself: a file, or a directory with all that is in it. -/
inductive Holding where
  | file (path : Path)
  | tree (path : Path)
  deriving DecidableEq

namespace Holding

def path : Holding → Path
  | .file path | .tree path => path

abbrev place (holding : Holding) : Location := holding.path.place

def Covers : Holding → Location → Prop
  | .file path, location => location = path.place
  | .tree path, location => path.place <+: location

def Stands (disk : Disk) : Holding → Prop
  | .file path => ∃ contents executable,
      disk.get? path.place = some (.file contents executable)
  | .tree path => disk.get? path.place = some .directory

variable {holding : Holding} {disk : Disk}

theorem covers_place (holding : Holding) : holding.Covers holding.place := by
  cases holding with
  | file path => exact rfl
  | tree path => exact List.prefix_refl _

theorem Covers.below (covers : holding.Covers location) : holding.place <+: location := by
  cases holding with
  | file path => exact covers ▸ List.prefix_refl _
  | tree path => exact covers

theorem Stands.occupied (stands : holding.Stands disk) : disk.get? holding.place ≠ none := by
  cases holding with
  | file path =>
    obtain ⟨contents, executable, file⟩ := stands
    exact file ▸ nofun
  | tree path => exact stands ▸ nofun

theorem Stands.of_get? {after : Disk} (stands : holding.Stands disk)
    (same : after.get? holding.place = disk.get? holding.place) : holding.Stands after := by
  cases holding with
  | file path =>
    obtain ⟨contents, executable, file⟩ := stands
    exact ⟨contents, executable, same.trans file⟩
  | tree path => exact same.trans stands

end Holding

/-- What a program has for itself after one more request. It has what it was the first to make,
until it removes it or gives it up. -/
def Exchange.holds (held : List Holding) : Exchange → List Holding
  | ⟨.createFile path, .ok (), _, _⟩ => .file path :: held
  | ⟨.makeDirectory path, .ok (), _, _⟩ => .tree path :: held
  | ⟨.removeFile path, _, _, _⟩ | ⟨.discardFile path, _, _, _⟩ => held.filter (· ≠ .file path)
  | ⟨.removeTree path, _, _, _⟩ | ⟨.discardTree path, _, _, _⟩ => held.filter (· ≠ .tree path)
  | _ => held

/-- What a program has for itself after all that it has asked for. -/
def heldAfter (trace : List Exchange) : List Holding := trace.foldl Exchange.holds []

theorem heldAfter_concat (trace : List Exchange) (exchange : Exchange) :
    heldAfter (trace ++ [exchange]) = exchange.holds (heldAfter trace) := by
  rw [heldAfter, List.foldl_append]
  rfl

/-- The locations that belong to one of the holdings. -/
def Covered (held : List Holding) (location : Location) : Prop :=
  ∃ holding ∈ held, holding.Covers location

theorem Covered.mono (within : held ⊆ more) (covered : Covered held location) :
    Covered more location :=
  covered.imp fun _ both => ⟨within both.1, both.2⟩

/-- Where programs on one disk work: one path below which they make their files, and paths below
which they make their directories. -/
structure Site where
  scratch : Path
  bases : Path → Prop

namespace Site

def OnWay (site : Site) (location : Location) : Prop :=
  location ∈ site.scratch.way ∨ ∃ base, site.bases base ∧ location ∈ base.way

/-- The locations on the way to where somebody works, not counting the only path below which
directories are made: to make one there one has to get there. -/
def Guards (site : Site) (location : Location) : Prop :=
  location ∈ site.scratch.way ∨
    ∃ base other, site.bases base ∧ site.bases other ∧ base ≠ other ∧ location ∈ base.way

/-- Everything that a program has for itself stands, and no directory that it has is on the way
to where the others work. -/
structure Sound (site : Site) (disk : Disk) (held : List Holding) : Prop where
  stands : ∀ holding ∈ held, holding.Stands disk
  apart : ∀ path, .tree path ∈ held → ∀ location, site.OnWay location →
    ¬ path.place <+: location

variable {site : Site} {disk : Disk} {held : List Holding}

theorem Sound.subset (sound : site.Sound disk more) (within : held ⊆ more) :
    site.Sound disk held :=
  ⟨fun holding member => sound.stands holding (within member),
    fun path member => sound.apart path (within member)⟩

theorem Sound.not_covered (sound : site.Sound disk held) (onWay : site.OnWay location)
    (folder : disk.get? location = some .directory) : ¬ Covered held location := by
  rintro ⟨holding, member, covers⟩
  cases holding with
  | file path =>
    obtain ⟨contents, executable, file⟩ := sound.stands _ member
    rw [covers, file] at folder
    cases folder
  | tree path => exact sound.apart path member location onWay covers

/-- What is new has nothing in common with what somebody had before: its place was free, and the
way to it leads through nobody's directory. -/
theorem Sound.fresh (sound : site.Sound disk held) (tree : disk.IsTree) {holding : Holding}
    (free : disk.get? holding.place = none) (onWay : site.OnWay holding.place.dropLast)
    (covers : holding.Covers location) : ¬ Covered held location := by
  rintro ⟨other, member, coversToo⟩
  have unused (inside : holding.place <+: other.place) : False := by
    obtain ⟨rest, same⟩ := inside
    exact (sound.stands other member).occupied (same ▸ tree.free_below free rest)
  rcases List.prefix_or_prefix_of_prefix covers.below coversToo.below with below | above
  · exact unused below
  · cases other with
    | file path =>
      rw [coversToo] at covers
      exact unused covers.below
    | tree path =>
      have notRoot := Disk.ne_root_of_not_directory disk (by rw [free]; exact nofun)
      rw [← List.dropLast_concat_getLast notRoot, List.prefix_concat_iff,
        List.dropLast_concat_getLast notRoot] at above
      rcases above with same | inside
      · exact unused (same ▸ List.prefix_refl _)
      · exact sound.apart path member _ onWay inside

end Site

/-- Between two machines others may have been at work, but not on `mine`, where at most missing
directories were made. The directories at `ways` have stayed. -/
structure Undisturbed (mine ways : Location → Prop) (seen now : Machine) : Prop where
  mine : Disk.ChangesOnly (fun location => ¬ mine location) (fun _ => True) seen.disk now.disk
  ways : ∀ location, ways location → seen.disk.get? location = some .directory →
    now.disk.get? location = some .directory
  stays : ∀ here, now.working = some here → seen.working = some here

namespace Undisturbed

variable {mine ways : Location → Prop} {seen now later : Machine}

theorem refl (machine : Machine) : Undisturbed mine ways machine machine :=
  ⟨.refl _, fun _ _ => id, fun _ => id⟩

theorem trans (first : Undisturbed mine ways seen now) (second : Undisturbed mine ways now later) :
    Undisturbed mine ways seen later where
  mine := first.mine.trans second.mine
  ways location onWay folder := second.ways location onWay (first.ways location onWay folder)
  stays here stands := first.stays here (second.stays here stands)

theorem narrow (undisturbed : Undisturbed mine ways seen now)
    (fewer : ∀ location, less location → mine location) : Undisturbed less ways seen now :=
  ⟨undisturbed.mine.weaken (fun _ => mt (fewer _)) fun _ => id, undisturbed.ways,
    undisturbed.stays⟩

theorem keeps (undisturbed : Undisturbed mine ways seen now) (own : mine location)
    (stands : seen.disk.get? location = some entry) : now.disk.get? location = some entry :=
  undisturbed.mine.keeps (not_not_intro own) stands

theorem stood (undisturbed : Undisturbed mine ways seen now) (own : mine location)
    (stands : now.disk.get? location = some entry) (thing : entry ≠ .directory) :
    seen.disk.get? location = some entry := by
  rcases undisturbed.mine location with same | other | ⟨-, -, folder⟩
  · exact same ▸ stands
  · exact absurd own other
  · rw [stands] at folder
    exact absurd (Option.some.inj folder) thing

theorem holding (undisturbed : Undisturbed mine ways seen now) {holding : Holding}
    (own : mine holding.place) (stands : holding.Stands seen.disk) : holding.Stands now.disk := by
  obtain ⟨entry, there⟩ := Option.ne_none_iff_exists'.mp stands.occupied
  exact stands.of_get? ((undisturbed.keeps own there).trans there.symm)

theorem sound {site : Site} (undisturbed : Undisturbed (Covered held) ways seen now)
    (sound : site.Sound seen.disk held) : site.Sound now.disk held where
  stands holding member :=
    undisturbed.holding ⟨holding, member, holding.covers_place⟩ (sound.stands holding member)
  apart := sound.apart

end Undisturbed

/-- Where an absolute path leads does not change as long as what it passes stays. -/
theorem Machine.find_again {machine other : Machine} (absolute : path.isAbsolute = true)
    (found : machine.find path = .ok (location, entry))
    (folders : ∀ passes ∈ passed [] (pieces path.text.toList),
      other.disk.get? passes = some .directory)
    (stands : other.disk.get? path.place = some thing) :
    other.find path = .ok (path.place, thing) := by
  obtain ⟨leads, -⟩ := (find_eq_ok_iff ..).mp found
  obtain ⟨start, begun, followed⟩ := (locate_eq_ok_iff ..).mp leads
  obtain ⟨noNul, short, rfl⟩ := (Disk.origin_absolute_iff _ absolute).mp begun
  refine (find_eq_ok_iff ..).mpr ⟨(locate_eq_ok_iff ..).mpr ⟨[], ?_, ?_⟩, stands⟩
  · exact (Disk.origin_absolute_iff _ absolute).mpr ⟨noNul, short, rfl⟩
  · exact (Disk.walk_eq_ok_iff ..).mpr
      ⟨folders, ((Disk.walk_eq_ok_iff ..).mp followed).2.1, rfl⟩

theorem Machine.folders_of_find {machine : Machine} (absolute : path.isAbsolute = true)
    (found : machine.find path = .ok (location, entry)) :
    location = path.place ∧ machine.disk.get? location = some entry ∧
      ∀ passes ∈ passed [] (pieces path.text.toList),
        machine.disk.get? passes = some .directory := by
  obtain ⟨leads, stands⟩ := (find_eq_ok_iff ..).mp found
  obtain ⟨start, begun, followed⟩ := (locate_eq_ok_iff ..).mp leads
  obtain rfl := origin_absolute begun absolute
  exact ⟨locate_of_absolute absolute leads, stands, ((Disk.walk_eq_ok_iff ..).mp followed).1⟩

theorem Undisturbed.find {mine ways : Location → Prop} {seen now : Machine}
    (undisturbed : Undisturbed mine ways seen now) (absolute : path.isAbsolute = true)
    (found : seen.find path = .ok (location, entry))
    (passes : ∀ location ∈ passed [] (pieces path.text.toList), ways location ∨ mine location)
    (own : mine path.place) : now.find path = .ok (path.place, entry) := by
  obtain ⟨rfl, stands, folders⟩ := Machine.folders_of_find absolute found
  refine Machine.find_again absolute found (fun location member => ?_)
    (undisturbed.keeps own stands)
  rcases passes location member with onWay | inside
  · exact undisturbed.ways location onWay (folders location member)
  · exact undisturbed.keeps inside (folders location member)

end FragmentBuild
