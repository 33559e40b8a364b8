import FragmentBuild.Proofs.WorkDirectories

/-! The locations that paths name. A name does not depend on what stands on the disk, so it can
be followed from one machine to the next. -/
namespace FragmentBuild

/-- The location that a path names, whether or not anything stands there. The empty path names
the working directory. -/
def Path.Names (working : Option Location) (path : Path) (location : Location) : Prop :=
  ∃ start, (if path.isAbsolute then start = [] else working = some start) ∧
    destination start (pieces path.text.toList) = location

namespace Path

variable {working : Option Location} {path : Path} {location other : Location}

theorem names_of_absolute (absolute : path.isAbsolute = true) :
    path.Names working location ↔ location = destination [] (pieces path.text.toList) := by
  simp [Names, absolute, eq_comm]

theorem Names.of_absolute (names : path.Names working location)
    (absolute : path.isAbsolute = true) (other : Option Location) : path.Names other location :=
  (names_of_absolute absolute).mpr ((names_of_absolute absolute).mp names)

theorem names_of_relative (relative : path.isAbsolute = false) :
    path.Names working location ↔ ∃ start, working = some start ∧
      location = destination start (pieces path.text.toList) := by
  simp [Names, relative, eq_comm]

theorem Names.eq (first : path.Names working location) (second : path.Names working other) :
    location = other := by
  cases absolute : path.isAbsolute with
  | true =>
    rw [names_of_absolute absolute] at first second
    rw [first, second]
  | false =>
    obtain ⟨start, here, rfl⟩ := (names_of_relative absolute).mp first
    obtain ⟨_, hereToo, rfl⟩ := (names_of_relative absolute).mp second
    cases here.symm.trans hereToo
    rfl

theorem destination_stem (start : Location) (path : Path) :
    destination start (Disk.stem path) = destination start (pieces path.text.toList) := by
  obtain ⟨empties, split, empty⟩ := Disk.stem_append path
  rw [split, destination_append, (Disk.passed_empties _ empties empty).2.2]

theorem names_of_origin (begun : Disk.origin working path = .ok start) :
    path.Names working (destination start (pieces path.text.toList)) := by
  refine ⟨start, ?_, rfl⟩
  cases absolute : path.isAbsolute with
  | true => exact Machine.origin_absolute begun absolute
  | false => exact Machine.origin_relative begun absolute

theorem names_of_locate {disk : Disk} (leads : disk.locate working path = .ok location) :
    path.Names working location := by
  obtain ⟨start, begun, followed⟩ := (Disk.locate_eq_ok_iff ..).mp leads
  rw [← ((Disk.walk_eq_ok_iff ..).mp followed).2.2]
  exact names_of_origin begun

/-- A path leads to what it names, unless a link stands there. -/
theorem names_or_link {machine : Machine} (aimed : machine.aim path = .ok location) :
    path.Names machine.working location ∨ machine.IsLink path := by
  obtain ⟨here, leads, followed⟩ := (Disk.aim_eq_ok_iff ..).mp aimed
  by_cases link : ∃ target, machine.disk.get? here = some (.link target)
  · obtain ⟨target, stands⟩ := link
    exact .inr ⟨here, target, (Machine.find_eq_ok_iff ..).mpr ⟨leads, stands⟩⟩
  · have same := Disk.follow_of_not_link Disk.linkLimit fun target stands => link ⟨target, stands⟩
    cases same.symm.trans followed
    exact .inl (names_of_locate leads)

theorem names_of_locateNew {disk : Disk}
    (leads : disk.locateNew working path = .ok (location, slash)) :
    path.Names working location := by
  obtain ⟨⟨start, begun, followed⟩, -⟩ := (Disk.locateNew_eq_ok_iff ..).mp leads
  rw [← ((Disk.walk_eq_ok_iff ..).mp followed).2.2, destination_stem]
  exact names_of_origin begun

theorem Names.of_stays (stays : ∀ here, working = some here → earlier = some here)
    (names : path.Names working location) : path.Names earlier location := by
  obtain ⟨start, begins, leads⟩ := names
  refine ⟨start, ?_, leads⟩
  split at begins
  · rename_i absolute
    rwa [if_pos absolute]
  · rename_i relative
    rw [if_neg relative]
    exact stays start begins

/-- Whether a location lies in what a path names. -/
def Contains (working : Option Location) (path : Path) (location : Location) : Prop :=
  ∃ root, path.Names working root ∧ root <+: location

theorem Contains.of_stays (stays : ∀ here, working = some here → earlier = some here)
    (contains : path.Contains working location) : path.Contains earlier location :=
  contains.imp fun _ both => ⟨both.1.of_stays stays, both.2⟩

theorem Names.contains (names : path.Names working location) : path.Contains working location :=
  ⟨location, names, List.prefix_refl _⟩

theorem names_join_absolute (base : Path) (absolute : path.isAbsolute = true) :
    (base.join path).Names working location ↔ path.Names working location := by
  rw [join, if_pos absolute]

theorem names_join_relative (base : Path) (relative : path.isAbsolute = false) :
    (base.join path).Names working location ↔
      ∃ root, base.Names working root ∧
        location = destination root (pieces path.text.toList) := by
  simp only [Names, isAbsolute_join_relative base relative, destination_join _ base relative]
  constructor
  · rintro ⟨start, begins, rfl⟩
    exact ⟨_, ⟨start, begins, rfl⟩, rfl⟩
  · rintro ⟨_, ⟨start, begins, rfl⟩, rfl⟩
    exact ⟨start, begins, rfl⟩

theorem names_child_iff (base : Path) (plain : IsPlainName name) :
    (base.child name).Names working location ↔
      ∃ root, base.Names working root ∧ location = root ++ [name] := by
  rw [child, names_join_relative base (isAbsolute_of_plain plain.plain)]
  simp only [pieces_plain _ plain.plain, destination, List.foldl_cons, List.foldl_nil, plain.next]

theorem Names.child (names : path.Names working location) (plain : IsPlainName name) :
    (path.child name).Names working (location ++ [name]) :=
  (names_child_iff path plain).mpr ⟨location, names, rfl⟩

theorem Contains.of_child (plain : IsPlainName name)
    (contains : (path.child name).Contains working location) :
    path.Contains working location := by
  obtain ⟨_, names, inside⟩ := contains
  obtain ⟨root, leads, rfl⟩ := (names_child_iff path plain).mp names
  exact ⟨root, leads, (List.prefix_append _ _).trans inside⟩

end Path

namespace Machine

/-- A path leads to a directory; the empty path leads to the working directory. -/
def Enters (machine : Machine) (path : Path) (root : Location) : Prop :=
  ∃ start, (if path.isAbsolute then start = [] else machine.working = some start) ∧
    machine.disk.walk start (pieces path.text.toList) = .ok root ∧
    machine.disk.get? root = some .directory

theorem Enters.names {machine : Machine} (enters : machine.Enters path root) :
    path.Names machine.working root := by
  obtain ⟨start, begins, followed, -⟩ := enters
  exact ⟨start, begins, ((Disk.walk_eq_ok_iff ..).mp followed).2.2⟩

theorem Enters.stands {machine : Machine} (enters : machine.Enters path root) :
    machine.disk.get? root = some .directory := enters.choose_spec.2.2

theorem Enters.not_isLink {before after : Machine} (enters : before.Enters path root)
    (stays : ∀ here, after.working = some here → before.working = some here)
    (keeps : Disk.KeepsDirectories before.disk after.disk) : ¬ after.IsLink path := by
  rintro ⟨location, target, found⟩
  obtain ⟨leads, stands⟩ := (find_eq_ok_iff ..).mp found
  obtain rfl := ((Path.names_of_locate leads).of_stays stays).eq enters.names
  rw [keeps location enters.stands] at stands
  cases stands

end Machine

def Path.OnWay (working : Option Location) (path : Path) (location : Location) : Prop :=
  ∃ parent ∈ path.ancestors, parent.Names working location

theorem Path.OnWay.of_stays (stays : ∀ here, working = some here → earlier = some here)
    (onWay : Path.OnWay working path location) : path.OnWay earlier location := by
  obtain ⟨parent, member, names⟩ := onWay
  exact ⟨parent, member, names.of_stays stays⟩

/-- The absolute form of a path. -/
def Path.IsWhole (working : Option Location) (path whole : Path) : Prop :=
  whole.isAbsolute = true ∧
    (whole = path ∨ ∃ here, working = some here ∧ whole = (Machine.locationPath here).join path)

theorem Path.IsWhole.of_stays (stays : ∀ here, working = some here → earlier = some here)
    (isWhole : Path.IsWhole working path whole) : path.IsWhole earlier whole :=
  ⟨isWhole.1, isWhole.2.imp_right fun ⟨here, stands, same⟩ => ⟨here, stays here stands, same⟩⟩

theorem Path.IsWhole.endsIn (isWhole : Path.IsWhole working path whole)
    (ends : path.EndsIn ending) : whole.EndsIn ending := by
  rcases isWhole.2 with rfl | ⟨here, -, rfl⟩
  · exact ends
  · exact ends.join _

/-- A location that can be written down as a path. -/
def IsPlainLocation (location : Location) : Prop := ∀ name ∈ location, Path.IsPlainName name

instance (location : Location) : Decidable (IsPlainLocation location) :=
  inferInstanceAs (Decidable (∀ name ∈ location, Path.IsPlainName name))

theorem pieces_intercalate (names : List OsText) (plain : ∀ name ∈ names, slashByte ∉ name.toList)
    (some : names ≠ []) :
    pieces ([slashByte].intercalate (names.map OsText.toList)) = names.map OsText.toList := by
  induction names with
  | nil => exact absurd rfl some
  | cons name rest ih =>
    have here := pieces_plain _ (plain name List.mem_cons_self)
    cases rest with
    | nil => simpa using here
    | cons next more =>
      have later := ih (fun other member => plain other (List.mem_cons_of_mem _ member)) nofun
      rw [List.map_cons, List.map_cons, List.intercalate_cons_cons, List.append_assoc]
      exact (pieces_append_slash _ _).trans (by rw [here]; exact congrArg (_ :: ·) later)

theorem IsPlainLocation.destination (plain : IsPlainLocation location) (start : Location) :
    FragmentBuild.destination start (location.map OsText.toList) = start ++ location := by
  induction location generalizing start with
  | nil => simp [FragmentBuild.destination]
  | cons name rest ih =>
    have later := ih (fun other member => plain other (List.mem_cons_of_mem _ member))
      (start ++ [name])
    rw [FragmentBuild.destination] at later ⊢
    rw [List.map_cons, List.foldl_cons, (plain name List.mem_cons_self).next, later,
      List.append_assoc]
    rfl

namespace Path

variable {working : Option Location} {path whole : Path} {location : Location}

theorem names_locationPath (plain : IsPlainLocation here) :
    (Machine.locationPath here).Names working location ↔ location = here := by
  have leads : destination [] (pieces (Machine.locationPath here).text.toList) = here := by
    cases here with
    | nil => rfl
    | cons name rest =>
      have parts : pieces (Machine.locationPath (name :: rest)).text.toList =
          [] :: (name :: rest).map OsText.toList := by
        rw [← pieces_intercalate _ (fun name member => (plain name member).plain) nofun]
        rfl
      exact (congrArg _ parts).trans (plain.destination [])
  rw [names_of_absolute (World.isAbsolute_locationPath here), leads]

theorem IsWhole.names_iff (isWhole : path.IsWhole working whole)
    (plain : ∀ here, working = some here → IsPlainLocation here) :
    whole.Names working location ↔ path.Names working location := by
  rcases isWhole.2 with rfl | ⟨here, stands, rfl⟩
  · rfl
  · cases absolute : path.isAbsolute with
    | true => exact names_join_absolute _ absolute
    | false =>
      rw [names_join_relative _ absolute, names_of_relative absolute]
      simp only [names_locationPath (plain here stands), exists_eq_left, stands, Option.some.injEq,
        exists_eq_left']

theorem IsWhole.names_join_iff (isWhole : path.IsWhole working whole)
    (plain : ∀ here, working = some here → IsPlainLocation here) (other : Path) :
    (whole.join other).Names working location ↔ (path.join other).Names working location := by
  cases absolute : other.isAbsolute with
  | true => rw [names_join_absolute _ absolute, names_join_absolute _ absolute]
  | false =>
    simp only [names_join_relative _ absolute, isWhole.names_iff plain]

end Path

end FragmentBuild
