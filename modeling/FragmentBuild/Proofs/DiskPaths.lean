import FragmentBuild.Proofs.DiskEntries

/-! Where paths lead on a disk, what is found there, and what is reached by the links at their
end. A slash at the end of a new name does not count. -/
namespace FragmentBuild.Disk

theorem walk_mono (keeps : KeepsDirectories before after)
    (followed : before.walk here parts = .ok location) : after.walk here parts = .ok location := by
  rw [walk_eq_ok_iff] at followed ⊢
  exact ⟨fun directory member => keeps _ (followed.1 directory member), followed.2⟩

theorem locate_eq_ok_iff (disk : Disk) (working : Option Location) (path : Path) :
    disk.locate working path = .ok location ↔
      ∃ start, origin working path = .ok start ∧
        disk.walk start (pieces path.text.toList) = .ok location := by
  cases begun : origin working path with
  | error cause => simp [locate, begun, bind, Except.bind]
  | ok start => simp [locate, begun, bind, Except.bind]

theorem locate_mono (keeps : KeepsDirectories before after)
    (found : before.locate working path = .ok location) :
    after.locate working path = .ok location := by
  rw [locate_eq_ok_iff] at found ⊢
  obtain ⟨start, begun, followed⟩ := found
  exact ⟨start, begun, walk_mono keeps followed⟩

theorem find_eq_ok_iff (disk : Disk) (working : Option Location) (path : Path) :
    disk.find working path = .ok (location, entry) ↔
      disk.locate working path = .ok location ∧ disk.get? location = some entry := by
  cases found : disk.locate working path with
  | error cause => simp [find, found, bind, Except.bind]
  | ok here =>
    cases stands : disk.get? here with
    | none =>
      simp only [find, found, bind, Except.bind, stands]
      constructor
      · intro impossible; cases impossible
      · rintro ⟨same, other⟩; cases same; simp [stands] at other
    | some thing =>
      simp only [find, found, bind, Except.bind, stands, pure, Except.pure]
      constructor
      · intro same; cases same; exact ⟨rfl, stands⟩
      · rintro ⟨same, other⟩; cases same; rw [stands] at other; cases other; rfl

theorem follow_of_not_link {disk : Disk} (count : Nat)
    (plain : ∀ target, disk.get? here ≠ some (.link target)) :
    disk.follow count here = .ok here := by
  cases count <;> rw [follow] <;> split
  all_goals first | rfl | exact absurd ‹_› (plain _)

theorem follow_zero {disk : Disk} (link : disk.get? here = some (.link target)) :
    disk.follow 0 here = .error .tooManyLinks := by
  simp [follow, link]

theorem follow_succ {disk : Disk} (link : disk.get? here = some (.link target)) (count : Nat) :
    disk.follow (count + 1) here =
      (disk.locate (some here.dropLast) target).bind (disk.follow count) := by
  rw [follow, link]

theorem follow_cases {disk : Disk} (followed : disk.follow count here = .ok there) :
    there = here ∨ ∃ target next left, disk.get? here = some (.link target) ∧
      disk.locate (some here.dropLast) target = .ok next ∧ left < count ∧
      disk.follow left next = .ok there := by
  by_cases link : ∃ target, disk.get? here = some (.link target)
  · obtain ⟨target, link⟩ := link
    cases count with
    | zero => simp [follow_zero link] at followed
    | succ count =>
      rw [follow_succ link] at followed
      cases leads : disk.locate (some here.dropLast) target with
      | error cause => simp [leads, Except.bind] at followed
      | ok next =>
        rw [leads] at followed
        exact .inr ⟨target, next, count, link, leads, count.lt_succ_self, followed⟩
  · have same := follow_of_not_link count (not_exists.mp link)
    exact .inl (Except.ok.inj (followed.symm.trans same))

theorem not_link_of_follow {disk : Disk} (followed : disk.follow count here = .ok there)
    (target : Path) : disk.get? there ≠ some (.link target) := by
  induction count generalizing here with
  | zero =>
    by_cases link : ∃ target, disk.get? here = some (.link target)
    · obtain ⟨_, link⟩ := link
      simp [follow_zero link] at followed
    · have plain := not_exists.mp link
      cases (follow_of_not_link 0 plain).symm.trans followed
      exact plain target
  | succ count ih =>
    by_cases link : ∃ target, disk.get? here = some (.link target)
    · obtain ⟨next, link⟩ := link
      rw [follow_succ link] at followed
      cases leads : disk.locate (some here.dropLast) next with
      | error cause => simp [leads, Except.bind] at followed
      | ok place => exact ih (by simpa [leads, Except.bind] using followed)
    · have plain := not_exists.mp link
      cases (follow_of_not_link (count + 1) plain).symm.trans followed
      exact plain target

/-- Links lead where they did as long as they and the directories stand. -/
theorem follow_mono (keeps : KeepsDirectories before after)
    (links : ∀ location target, before.get? location = some (.link target) →
      after.get? location = some (.link target))
    (plain : ∀ target, after.get? there ≠ some (.link target))
    (followed : before.follow count here = .ok there) : after.follow count here = .ok there := by
  induction count generalizing here with
  | zero =>
    by_cases link : ∃ target, before.get? here = some (.link target)
    · obtain ⟨_, link⟩ := link
      simp [follow_zero link] at followed
    · cases (follow_of_not_link 0 (not_exists.mp link)).symm.trans followed
      exact follow_of_not_link 0 plain
  | succ count ih =>
    by_cases link : ∃ target, before.get? here = some (.link target)
    · obtain ⟨next, link⟩ := link
      rw [follow_succ link] at followed
      rw [follow_succ (links here next link)]
      cases leads : before.locate (some here.dropLast) next with
      | error cause => simp [leads, Except.bind] at followed
      | ok place =>
        rw [locate_mono keeps leads]
        exact ih (by simpa [leads, Except.bind] using followed)
    · cases (follow_of_not_link (count + 1) (not_exists.mp link)).symm.trans followed
      exact follow_of_not_link (count + 1) plain

theorem aim_eq_ok_iff (disk : Disk) (working : Option Location) (path : Path) :
    disk.aim working path = .ok location ↔
      ∃ here, disk.locate working path = .ok here ∧ disk.follow linkLimit here = .ok location := by
  cases found : disk.locate working path with
  | error cause => simp [aim, found, bind, Except.bind]
  | ok here => simp [aim, found, bind, Except.bind]

theorem reach_eq_ok_iff (disk : Disk) (working : Option Location) (path : Path) :
    disk.reach working path = .ok (location, entry) ↔
      disk.aim working path = .ok location ∧ disk.get? location = some entry := by
  cases leads : disk.aim working path with
  | error cause => simp [reach, leads, bind, Except.bind]
  | ok here =>
    cases stands : disk.get? here with
    | none =>
      simp only [reach, leads, bind, Except.bind, stands]
      constructor
      · intro impossible; cases impossible
      · rintro ⟨same, other⟩; cases same; simp [stands] at other
    | some thing =>
      simp only [reach, leads, bind, Except.bind, stands, pure, Except.pure]
      constructor
      · intro same; cases same; exact ⟨rfl, stands⟩
      · rintro ⟨same, other⟩; cases same; rw [stands] at other; cases other; rfl

theorem aim_of_locate {disk : Disk} (leads : disk.locate working path = .ok location)
    (plain : ∀ target, disk.get? location ≠ some (.link target)) :
    disk.aim working path = .ok location :=
  (aim_eq_ok_iff ..).mpr ⟨location, leads, follow_of_not_link _ plain⟩

theorem reach_of_find {disk : Disk}
    (found : disk.find working path = .ok (location, .file contents executable)) :
    disk.reach working path = .ok (location, .file contents executable) := by
  obtain ⟨leads, stands⟩ := (find_eq_ok_iff ..).mp found
  exact (reach_eq_ok_iff ..).mpr ⟨aim_of_locate leads (by simp [stands]), stands⟩

/-- Behind a path lies what stands there, unless that is a link. -/
theorem reach_cases {disk : Disk} (reached : disk.reach working path = .ok (location, entry)) :
    disk.find working path = .ok (location, entry) ∨
      ∃ here target, disk.find working path = .ok (here, .link target) := by
  obtain ⟨leads, stands⟩ := (reach_eq_ok_iff ..).mp reached
  obtain ⟨here, leads, followed⟩ := (aim_eq_ok_iff ..).mp leads
  by_cases link : ∃ target, disk.get? here = some (.link target)
  · obtain ⟨target, link⟩ := link
    exact .inr ⟨here, target, (find_eq_ok_iff ..).mpr ⟨leads, link⟩⟩
  · have same := follow_of_not_link linkLimit fun target stands => link ⟨target, stands⟩
    cases same.symm.trans followed
    exact .inl ((find_eq_ok_iff ..).mpr ⟨leads, stands⟩)

theorem isFile_iff (disk : Disk) (working : Option Location) (path : Path) :
    disk.isFile working path = true ↔
      ∃ location contents executable,
        disk.reach working path = .ok (location, .file contents executable) := by
  unfold isFile
  split
  · rename_i location contents executable reached
    simp [reached]
  · rename_i other
    simp only [Bool.false_eq_true, false_iff]
    rintro ⟨location, contents, executable, reached⟩
    exact other _ _ _ reached

theorem isFile_of_find {disk : Disk}
    (found : disk.find working path = .ok (location, .file contents executable)) :
    disk.isFile working path = true :=
  (isFile_iff ..).mpr ⟨_, _, _, reach_of_find found⟩

theorem read_of_reach {disk : Disk}
    (reached : disk.reach working path = .ok (location, .file contents executable)) :
    disk.read working path = .ok contents := by
  simp [read, reached, bind, Except.bind, pure, Except.pure]

theorem reach_of_read {disk : Disk} (read : disk.read working path = .ok contents) :
    ∃ location entry, disk.reach working path = .ok (location, entry) ∧
      ∀ held executable, entry = .file held executable → held = contents := by
  cases reached : disk.reach working path with
  | error cause => simp [Disk.read, reached, bind, Except.bind] at read
  | ok thing =>
    obtain ⟨location, entry⟩ := thing
    refine ⟨location, entry, rfl, ?_⟩
    rintro held executable rfl
    rw [read_of_reach reached] at read
    exact Except.ok.inj read

/-- The pieces of a path without the empty ones at its end. -/
def stem (path : Path) : List (List UInt8) :=
  ((pieces path.text.toList).reverse.dropWhile List.isEmpty).reverse

def EndsInSlash (path : Path) : Prop := (pieces path.text.toList).getLast? = some []

theorem stem_append (path : Path) :
    ∃ empties, pieces path.text.toList = stem path ++ empties ∧ ∀ piece ∈ empties, piece = [] := by
  refine ⟨((pieces path.text.toList).reverse.takeWhile List.isEmpty).reverse, ?_, ?_⟩
  · rw [stem, ← List.reverse_append, List.takeWhile_append_dropWhile, List.reverse_reverse]
  · intro piece member
    have all := List.all_takeWhile (l := (pieces path.text.toList).reverse) (p := List.isEmpty)
    simpa using List.all_eq_true.mp all piece (List.mem_reverse.mp member)

theorem stem_of_not_endsInSlash (plain : ¬ EndsInSlash path) :
    stem path = pieces path.text.toList := by
  rcases List.eq_nil_or_concat (pieces path.text.toList) with none | ⟨front, last, split⟩
  · simp [stem, none]
  · have notEmpty : last ≠ [] := by
      rintro rfl; exact plain (by simp [EndsInSlash, split])
    simp [stem, split, notEmpty]

theorem locateNew_eq_ok_iff (disk : Disk) (working : Option Location) (path : Path)
    (slash : Bool) :
    disk.locateNew working path = .ok (location, slash) ↔
      (∃ start, origin working path = .ok start ∧ disk.walk start (stem path) = .ok location) ∧
        (slash = true ↔ EndsInSlash path) := by
  have ends : ((pieces path.text.toList).reverse.head? == some []) = slash ↔
      (slash = true ↔ EndsInSlash path) := by
    rw [List.head?_reverse, EndsInSlash]
    cases slash <;> simp
  have unfolded : disk.locateNew working path =
      (origin working path).bind fun start =>
        (disk.walk start (stem path)).bind fun here =>
          .ok (here, (pieces path.text.toList).reverse.head? == some []) := rfl
  rw [unfolded, ← ends]
  cases begun : origin working path with
  | error cause => simp [Except.bind]
  | ok start => cases followed : disk.walk start (stem path) <;> simp [Except.bind, followed]

theorem locate_of_locateNew_plain {disk : Disk}
    (found : disk.locateNew working path = .ok (location, false)) :
    ¬ EndsInSlash path ∧ disk.locate working path = .ok location := by
  obtain ⟨⟨start, begun, followed⟩, ends⟩ := (locateNew_eq_ok_iff ..).mp found
  have plain : ¬ EndsInSlash path := by simpa using ends
  refine ⟨plain, (locate_eq_ok_iff ..).mpr ⟨start, begun, ?_⟩⟩
  rwa [stem_of_not_endsInSlash plain] at followed

theorem locateNew_of_locate {disk : Disk} (plain : ¬ EndsInSlash path)
    (found : disk.locate working path = .ok location) :
    disk.locateNew working path = .ok (location, false) := by
  obtain ⟨start, begun, followed⟩ := (locate_eq_ok_iff ..).mp found
  rw [← stem_of_not_endsInSlash plain] at followed
  exact (locateNew_eq_ok_iff ..).mpr ⟨⟨start, begun, followed⟩, by simpa using plain⟩

theorem passed_empties (here : Location) (empties : List (List UInt8))
    (empty : ∀ piece ∈ empties, piece = []) :
    (∀ directory ∈ passed here empties, directory = here) ∧
      (∀ piece ∈ empties, IsShort piece) ∧ destination here empties = here := by
  induction empties with
  | nil => simp [passed, destination]
  | cons piece rest ih =>
    obtain ⟨stays, short, back⟩ :=
      ih fun other member => empty other (List.mem_cons_of_mem _ member)
    obtain rfl := empty piece List.mem_cons_self
    have same : nextLocation here [] = here := by simp [nextLocation]
    refine ⟨?_, ?_, ?_⟩
    · simpa [passed, same] using stays
    · exact List.forall_mem_cons.mpr ⟨isShort_special (.inl rfl), short⟩
    · simpa [destination, same] using back

/-- A name with slashes behind it leads to the directory of that name. -/
theorem locate_of_locateNew_directory {disk : Disk}
    (found : disk.locateNew working path = .ok (location, slash))
    (stands : disk.get? location = some .directory) :
    disk.locate working path = .ok location := by
  obtain ⟨⟨start, begun, followed⟩, -⟩ := (locateNew_eq_ok_iff ..).mp found
  obtain ⟨empties, split, empty⟩ := stem_append path
  obtain ⟨directories, short, leads⟩ := (walk_eq_ok_iff ..).mp followed
  obtain ⟨stays, shortEmpties, back⟩ := passed_empties location empties empty
  refine (locate_eq_ok_iff ..).mpr ⟨start, begun, (walk_eq_ok_iff ..).mpr ⟨?_, ?_, ?_⟩⟩
  · intro directory member
    rw [split, passed_append, leads] at member
    rcases List.mem_append.mp member with early | late
    · exact directories directory early
    · rw [stays directory late, stands]
  · intro piece member
    rw [split] at member
    rcases List.mem_append.mp member with early | late
    · exact short piece early
    · exact shortEmpties piece late
  · rw [split, destination_append, leads, back]

theorem not_endsInSlash_of_find {disk : Disk}
    (found : disk.find working path = .ok (location, entry)) (thing : entry ≠ .directory) :
    ¬ EndsInSlash path := by
  intro slash
  obtain ⟨leads, stands⟩ := (find_eq_ok_iff ..).mp found
  obtain ⟨start, -, followed⟩ := (locate_eq_ok_iff ..).mp leads
  obtain ⟨front, split⟩ := List.getLast?_eq_some_iff.mp slash
  obtain ⟨directories, -, back⟩ := (walk_eq_ok_iff ..).mp followed
  have last : destination start front = location := by
    rw [← back, split, destination_append]; simp [destination, nextLocation]
  have folder := directories location (by simp [split, passed_append, passed, last])
  rw [stands] at folder
  exact thing (Option.some.inj folder)

end FragmentBuild.Disk
