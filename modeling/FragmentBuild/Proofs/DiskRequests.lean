import FragmentBuild.Proofs.DiskPaths

/-! What requests to a disk do when they succeed: where their paths lead, what stood there and
what has changed. -/
namespace FragmentBuild.Disk

theorem makeDirectory_eq_ok {disk : Disk} (made : disk.makeDirectory working path = .ok after) :
    ∃ location slash, disk.locateNew working path = .ok (location, slash) ∧
      disk.get? location = none ∧ after = disk.put location .directory ∧
      after.locate working path = .ok location := by
  cases found : disk.locateNew working path with
  | error cause => simp [makeDirectory, found, bind, Except.bind] at made
  | ok goal =>
    obtain ⟨location, slash⟩ := goal
    cases stands : disk.get? location with
    | some entry => simp [makeDirectory, found, stands, bind, Except.bind] at made
    | none =>
      have result : after = disk.put location .directory := by
        simp only [makeDirectory, found, stands, bind, Except.bind, pure, Except.pure] at made
        exact (Except.ok.inj made).symm
      refine ⟨location, slash, rfl, stands, result, ?_⟩
      have grows : Grows disk (disk.put location .directory) := grows_put disk stands (by simp)
      obtain ⟨⟨start, begun, followed⟩, ends⟩ := (locateNew_eq_ok_iff ..).mp found
      have later : after.locateNew working path = .ok (location, slash) := by
        rw [result]
        exact (locateNew_eq_ok_iff ..).mpr
          ⟨⟨start, begun, walk_mono grows.keepsDirectories followed⟩, ends⟩
      have notRoot : location ≠ [] := ne_root_of_not_directory disk (by simp [stands])
      exact locate_of_locateNew_directory later (by rw [result, get?_put]; simp [notRoot])

theorem createFile_eq_ok {disk : Disk} (made : disk.createFile working path = .ok after) :
    ∃ location, disk.locate working path = .ok location ∧ disk.get? location = none ∧
      after = disk.put location (.file .empty false) := by
  cases found : disk.locateNew working path with
  | error cause => simp [createFile, found, bind, Except.bind] at made
  | ok goal =>
    obtain ⟨location, slash⟩ := goal
    cases slash with
    | true => simp [createFile, found, bind, Except.bind] at made
    | false =>
      cases stands : disk.get? location with
      | some entry => simp [createFile, found, stands, bind, Except.bind] at made
      | none =>
        refine ⟨location, (locate_of_locateNew_plain found).2, stands, ?_⟩
        simp [createFile, found, stands, bind, Except.bind, pure, Except.pure] at made
        exact made.symm

/-- What is put into a file stands where the path and its links lead, unless a sink took it. -/
theorem fill_eq_ok {disk : Disk} (filled : disk.fill working path file = .ok after) :
    ∃ location, disk.aim working path = .ok location ∧
      ((disk.get? location = some .sink ∧ after = disk) ∨
        (disk.get? location ≠ some .directory ∧
          ∃ executable, after = disk.put location (file executable))) := by
  cases found : disk.locateNew working path with
  | error cause => simp [fill, found, bind, Except.bind] at filled
  | ok place =>
    obtain ⟨here, slash⟩ := place
    cases slash with
    | true => simp [fill, found, bind, Except.bind] at filled
    | false =>
      cases followed : disk.follow linkLimit here with
      | error cause => simp [fill, found, followed, bind, Except.bind] at filled
      | ok location =>
        have leads := (locate_of_locateNew_plain found).2
        refine ⟨location, (aim_eq_ok_iff ..).mpr ⟨here, leads, followed⟩, ?_⟩
        cases stands : disk.get? location with
        | none =>
          simp [fill, found, followed, stands, bind, Except.bind, pure, Except.pure] at filled
          exact .inr ⟨by simp, false, filled.symm⟩
        | some entry =>
          cases entry with
          | directory => simp [fill, found, followed, stands, bind, Except.bind] at filled
          | sink =>
            simp [fill, found, followed, stands, bind, Except.bind, pure, Except.pure] at filled
            exact .inl ⟨rfl, filled.symm⟩
          | file old executable =>
            simp [fill, found, followed, stands, bind, Except.bind, pure, Except.pure] at filled
            exact .inr ⟨by simp, executable, filled.symm⟩
          | link target => exact absurd stands (not_link_of_follow followed target)

theorem write_eq_ok {disk : Disk} (written : disk.write working path contents = .ok after) :
    ∃ location, disk.aim working path = .ok location ∧
      ((disk.get? location = some .sink ∧ after = disk) ∨
        (disk.get? location ≠ some .directory ∧
          ∃ executable, after = disk.put location (.file contents executable))) :=
  fill_eq_ok written

/-- A path without a slash at its end leads to no regular file once it has been asked to be
removed, whether the request succeeds or not. -/
theorem removeFile_cases (disk : Disk) (working : Option Location)
    (plain : ¬ EndsInSlash path) :
    (∃ cause, disk.removeFile working path = .error cause ∧ disk.isFile working path = false) ∨
      ∃ location, disk.locate working path = .ok location ∧
        disk.get? location ≠ some .directory ∧
        disk.removeFile working path = .ok (disk.erase location) := by
  cases found : disk.locateNew working path with
  | error cause =>
    refine .inl ⟨cause, by simp [removeFile, found, bind, Except.bind], ?_⟩
    rw [Bool.eq_false_iff, ne_eq, isFile_iff]
    rintro ⟨location, contents, executable, file⟩
    obtain ⟨_, leads, -⟩ := (aim_eq_ok_iff ..).mp ((reach_eq_ok_iff ..).mp file).1
    have there := locateNew_of_locate plain leads
    rw [found] at there
    contradiction
  | ok goal =>
    obtain ⟨location, slash⟩ := goal
    have same : slash = false := by
      have ends := ((locateNew_eq_ok_iff ..).mp found).2
      simpa [plain] using ends
    subst same
    have leads := (locate_of_locateNew_plain found).2
    have noFile (plain : ∀ target, disk.get? location ≠ some (.link target))
        (stands : ∀ contents executable,
          disk.get? location ≠ some (.file contents executable)) :
        disk.isFile working path = false := by
      rw [Bool.eq_false_iff, ne_eq, isFile_iff]
      rintro ⟨other, contents, executable, file⟩
      obtain ⟨leadsToo, there⟩ := (reach_eq_ok_iff ..).mp file
      cases (aim_of_locate leads plain).symm.trans leadsToo
      exact stands contents executable there
    cases stands : disk.get? location with
    | none =>
      refine .inl ⟨.notFound, ?_, noFile (by simp [stands]) (by simp [stands])⟩
      simp [removeFile, found, stands, bind, Except.bind, throw, throwThe, MonadExceptOf.throw]
    | some entry =>
      cases entry with
      | directory =>
        refine .inl ⟨.isADirectory, ?_, noFile (by simp [stands]) (by simp [stands])⟩
        simp [removeFile, found, stands, bind, Except.bind, throw, throwThe, MonadExceptOf.throw]
      | sink =>
        exact .inr ⟨location, leads, by simp [stands],
          by simp [removeFile, found, stands, bind, Except.bind, pure, Except.pure]⟩
      | file contents executable =>
        exact .inr ⟨location, leads, by simp [stands],
          by simp [removeFile, found, stands, bind, Except.bind, pure, Except.pure]⟩
      | link target =>
        exact .inr ⟨location, leads, by simp [stands],
          by simp [removeFile, found, stands, bind, Except.bind, pure, Except.pure]⟩

theorem removeFile_of_find {disk : Disk} (found : disk.find working path = .ok (location, entry))
    (thing : entry ≠ .directory) : disk.removeFile working path = .ok (disk.erase location) := by
  have plain := not_endsInSlash_of_find found thing
  obtain ⟨leads, stands⟩ := (find_eq_ok_iff ..).mp found
  rcases removeFile_cases disk working plain with ⟨cause, refused, -⟩ | ⟨other, leadsToo, -, erased⟩
  · have there := locateNew_of_locate plain leads
    cases entry with
    | directory => exact absurd rfl thing
    | _ =>
      simp [removeFile, there, stands, bind, Except.bind, pure, Except.pure] at refused
  · cases leads.symm.trans leadsToo
    exact erased

theorem removeFile_eq_ok {disk : Disk} (removed : disk.removeFile working path = .ok after) :
    ∃ location slash, disk.locateNew working path = .ok (location, slash) ∧
      disk.get? location ≠ some .directory ∧ after = disk.erase location := by
  cases found : disk.locateNew working path with
  | error cause => simp [removeFile, found, bind, Except.bind] at removed
  | ok goal =>
    obtain ⟨location, slash⟩ := goal
    refine ⟨location, slash, rfl, ?_⟩
    cases stands : disk.get? location with
    | none => simp [removeFile, found, stands, bind, Except.bind] at removed
    | some entry =>
      cases entry <;> cases slash <;>
        simp_all [removeFile, bind, Except.bind, pure, Except.pure]

theorem erased_of_removeFile {disk : Disk} (plain : ¬ EndsInSlash path)
    (leads : disk.locate working path = .ok location)
    (removed : disk.removeFile working path = .ok after) :
    disk.get? location ≠ some .directory ∧ after = disk.erase location := by
  obtain ⟨place, slash, leadsToo, thing, same⟩ := removeFile_eq_ok removed
  cases (locateNew_of_locate plain leads).symm.trans leadsToo
  exact ⟨thing, same⟩

theorem rename_eq_ok {disk : Disk} (moved : disk.rename working source target = .ok after) :
    ∃ location entry goal, disk.find working source = .ok (location, entry) ∧
      entry ≠ .directory ∧ disk.locate working target = .ok goal ∧
      disk.get? goal ≠ some .directory ∧
      after = if location = goal then disk else (disk.erase location).put goal entry := by
  cases found : disk.find working source with
  | error cause => simp [rename, found, bind, Except.bind] at moved
  | ok thing =>
    obtain ⟨location, entry⟩ := thing
    cases targeted : disk.locateNew working target with
    | error cause => simp [rename, found, targeted, bind, Except.bind] at moved
    | ok there =>
      obtain ⟨goal, slash⟩ := there
      by_cases folder : entry = .directory
      · simp [rename, found, targeted, folder, bind, Except.bind, throw, throwThe,
          MonadExceptOf.throw] at moved
      cases slash with
      | true =>
        simp [rename, found, targeted, folder, bind, Except.bind, throw, throwThe,
          MonadExceptOf.throw] at moved
      | false =>
        by_cases occupied : disk.get? goal = some .directory
        · simp [rename, found, targeted, folder, occupied, bind, Except.bind, throw, throwThe,
            MonadExceptOf.throw] at moved
        by_cases across : disk.mountOf location = disk.mountOf goal
        · refine ⟨location, entry, goal, rfl, folder, (locate_of_locateNew_plain targeted).2,
            occupied, ?_⟩
          by_cases same : location = goal
          · subst same
            simp [rename, found, targeted, folder, occupied, bind, Except.bind, pure,
              Except.pure] at moved
            simp [moved]
          · simp [rename, found, targeted, folder, occupied, across, same, bind, Except.bind, pure,
              Except.pure] at moved
            simp [moved, same]
        · simp [rename, found, targeted, folder, occupied, across, bind, Except.bind, throw,
            throwThe, MonadExceptOf.throw] at moved

theorem copy_eq_ok {disk : Disk} (copied : disk.copy working source target = .ok after) :
    ∃ location contents executable goal,
      disk.reach working source = .ok (location, .file contents executable) ∧
      disk.aim working target = .ok goal ∧
      ((disk.get? goal = some .sink ∧ after = disk) ∨
        (disk.get? goal ≠ some .directory ∧
          after = disk.put goal (.file contents executable))) := by
  cases reached : disk.reach working source with
  | error cause => simp [copy, reached, bind, Except.bind] at copied
  | ok thing =>
    obtain ⟨location, entry⟩ := thing
    cases entry with
    | directory => simp [copy, reached, bind, Except.bind] at copied
    | sink => simp [copy, reached, bind, Except.bind] at copied
    | link target => simp [copy, reached, bind, Except.bind] at copied
    | file contents executable =>
      simp only [copy, reached, bind, Except.bind] at copied
      obtain ⟨goal, leads, sunk | ⟨thing, -, put⟩⟩ := fill_eq_ok copied
      · exact ⟨location, contents, executable, goal, rfl, leads, .inl sunk⟩
      · exact ⟨location, contents, executable, goal, rfl, leads, .inr ⟨thing, put⟩⟩

/-- Whether the way to a directory's parent is lost once the directory is empty. -/
def losesParent (disk : Disk) (working : Option Location) (path : Path) (root : Location) : Bool :=
  match (origin working path).bind fun start =>
      (disk.eraseBelow root).walk start (stem path).dropLast with
  | .error error => error == .notFound
  | .ok parent => ((disk.eraseBelow root).get? parent).isNone

theorem removeTree_of_find {disk : Disk} (found : disk.find working path = .ok (root, .directory)) :
    disk.removeTree working path =
      if disk.losesParent working path root then (.ok (), disk.eraseBelow root)
      else if (stem path).getLast? = some [dotByte] then
        (.error .invalidArgument, disk.eraseBelow root)
      else if (stem path).getLast? = some [dotByte, dotByte] then
        (.error .notEmpty, disk.eraseBelow root)
      else if root = [] ∨ disk.mounts.contains root then (.error .busy, disk.eraseBelow root)
      else (.ok (), (disk.eraseBelow root).erase root) := by
  have front : (((pieces path.text.toList).reverse.dropWhile List.isEmpty).drop 1).reverse =
      (stem path).dropLast := by
    rw [stem, List.dropLast_reverse, List.drop_one]
  have last : ((pieces path.text.toList).reverse.dropWhile List.isEmpty).head? =
      (stem path).getLast? := by
    rw [stem, List.getLast?_reverse]
  simp only [removeTree, found, front, last]
  rfl

/-- Removing a tree empties the directory it finds. The directory itself goes as well, unless
it cannot be removed under this path. Of a link only the link goes. -/
theorem removeTree_cases (disk : Disk) (working : Option Location) (path : Path) :
    (∃ cause, disk.removeTree working path = (.error cause, disk)) ∨
      (∃ location target, disk.find working path = .ok (location, .link target) ∧
        disk.removeTree working path = (.ok (), disk.erase location)) ∨
      ∃ root, disk.find working path = .ok (root, .directory) ∧
        ((∃ result, disk.removeTree working path = (result, disk.eraseBelow root) ∧
            (result = .ok () → disk.losesParent working path root = true)) ∨
          (disk.removeTree working path = (.ok (), (disk.eraseBelow root).erase root) ∧
            disk.losesParent working path root = false ∧ root ≠ [])) := by
  cases found : disk.find working path with
  | error cause => exact .inl ⟨cause, by simp [removeTree, found]⟩
  | ok thing =>
    obtain ⟨root, entry⟩ := thing
    cases entry with
    | file contents executable => exact .inl ⟨.notADirectory, by simp [removeTree, found]⟩
    | sink => exact .inl ⟨.notADirectory, by simp [removeTree, found]⟩
    | link target => exact .inr (.inl ⟨root, target, rfl, by simp [removeTree, found]⟩)
    | directory =>
      refine .inr (.inr ⟨root, rfl, ?_⟩)
      rw [removeTree_of_find found]
      cases lost : disk.losesParent working path root with
      | true => exact .inl ⟨.ok (), rfl, fun _ => rfl⟩
      | false =>
        rw [if_neg (by simp)]
        split
        · exact .inl ⟨_, rfl, by simp⟩
        split
        · exact .inl ⟨_, rfl, by simp⟩
        split
        · exact .inl ⟨_, rfl, by simp⟩
        · rename_i free
          exact .inr ⟨rfl, rfl, fun root => free (.inl root)⟩

/-- Making several directories keeps whatever making one of them keeps. -/
theorem makeEach_keeps {motive : Disk → Prop} {disk : Disk} (paths : List Path)
    (start : motive disk)
    (make : ∀ path ∈ paths, ∀ before after : Disk, motive before →
      before.makeDirectory working path = .ok after → motive after) :
    motive (disk.makeEach working paths).2 := by
  induction paths with
  | nil => exact start
  | cons path parents ih =>
    have prepares := ih fun other member => make other (List.mem_cons_of_mem _ member)
    have makes := make path List.mem_cons_self
    rw [makeEach]
    split
    · rename_i made success
      exact makes disk made start success
    · split
      · rename_i error begun failed
        rwa [failed] at prepares
      · rename_i prepared success
        rw [success] at prepares
        split
        · rename_i made success
          exact makes prepared made prepares success
        · exact prepares
    · exact start

theorem makeEach_grows (disk : Disk) (working : Option Location) (paths : List Path) :
    Grows disk (disk.makeEach working paths).2 := by
  refine makeEach_keeps paths (.refl disk) fun path _ before after grown made => ?_
  obtain ⟨location, -, -, free, rfl, -⟩ := makeDirectory_eq_ok made
  exact grown.trans (grows_put before free (by simp))

theorem makeDirectories_grows (disk : Disk) (working : Option Location) (path : Path) :
    Grows disk (disk.makeDirectories working path).2 :=
  makeEach_grows disk working path.ancestors

theorem keepsDirectories_write {disk : Disk}
    (written : disk.write working path contents = .ok after) : KeepsDirectories disk after := by
  obtain ⟨location, -, ⟨-, rfl⟩ | ⟨thing, executable, rfl⟩⟩ := write_eq_ok written
  · exact fun _ => id
  · exact fun folder => (directory_put_iff disk folder thing (by simp)).mpr

theorem keepsDirectories_copy {disk : Disk}
    (copied : disk.copy working source target = .ok after) : KeepsDirectories disk after := by
  obtain ⟨_, contents, executable, goal, -, -, ⟨-, rfl⟩ | ⟨thing, rfl⟩⟩ := copy_eq_ok copied
  · exact fun _ => id
  · exact fun folder => (directory_put_iff disk folder thing (by simp)).mpr

theorem keepsDirectories_rename {disk : Disk}
    (moved : disk.rename working source target = .ok after) : KeepsDirectories disk after := by
  obtain ⟨location, entry, goal, found, thing, -, noFolder, rfl⟩ := rename_eq_ok moved
  have stands := ((find_eq_ok_iff ..).mp found).2
  have noFolderHere : disk.get? location ≠ some .directory := by simpa [stands] using thing
  intro folder there
  split
  · exact there
  · rw [directory_put_iff _ folder (by rwa [ne_eq, directory_erase_iff disk goal noFolderHere]) thing,
      directory_erase_iff disk folder noFolderHere]
    exact there

theorem keepsDirectories_removeFile {disk : Disk}
    (removed : disk.removeFile working path = .ok after) : KeepsDirectories disk after := by
  obtain ⟨location, -, -, thing, rfl⟩ := removeFile_eq_ok removed
  exact fun folder => (directory_erase_iff disk folder thing).mpr

end FragmentBuild.Disk
