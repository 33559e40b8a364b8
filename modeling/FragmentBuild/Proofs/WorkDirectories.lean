import FragmentBuild.Proofs.Removal
import FragmentBuild.Proofs.ScratchFiles

/-! What becomes of the working directory of a package build, and where the names in it
lead. -/
namespace FragmentBuild

namespace Path

theorem isAbsolute_join_relative (base : Path) (relative : path.isAbsolute = false) :
    (base.join path).isAbsolute = base.isAbsolute := by
  cases whole : base.isAbsolute with
  | true => exact isAbsolute_join base _ whole
  | false =>
    by_cases empty : base.text.toList = []
    · rw [isAbsolute] at relative
      simp [join, isAbsolute, relative, empty]
    · obtain ⟨c, rest, shape⟩ := List.exists_cons_of_ne_nil empty
      have first : base.text.toList.head? ≠ some slashByte := by simpa [isAbsolute] using whole
      rw [join, if_neg (by simp [relative])]
      split <;> simp_all [isAbsolute]

theorem isAbsolute_child (base : Path) (plain : slashByte ∉ name.toList) :
    (base.child name).isAbsolute = base.isAbsolute :=
  isAbsolute_join_relative base (isAbsolute_of_plain plain)

theorem isText_child_append {base : Path} {start : OsText} (isText : (base.child start).IsText)
    (more : String) : (base.child (start ++ more)).IsText := by
  have moreText := OsText.isText_ofText more
  cases whole : isAbsolute ⟨start⟩ with
  | true =>
    have still : isAbsolute ⟨start ++ more⟩ = true := by
      rw [isAbsolute, beq_iff_eq] at whole ⊢
      rw [OsText.toList_append, List.head?_append, whole]
      rfl
    rw [child, join, if_pos whole] at isText
    rw [child, join, if_pos still]
    exact isText.append moreText
  | false =>
    cases absolute : isAbsolute ⟨start ++ more⟩ with
    | true =>
      have none : start.toList = [] := by
        by_contra some
        obtain ⟨c, rest, shape⟩ := List.exists_cons_of_ne_nil some
        simp_all [isAbsolute]
      have same : start ++ (more : OsText) = more := OsText.ext (by simp [none])
      rw [child, join, if_pos absolute, same]
      exact moreText
    | false =>
      rw [IsText, child, text_join base whole] at isText
      rw [IsText, child, text_join base absolute, ← OsText.append_assoc]
      exact isText.append moreText

theorem destination_trunk (start : Location) (base : Path) :
    destination start base.trunk = destination start (pieces base.text.toList) := by
  rw [trunk]
  split
  · rename_i last
    obtain ⟨front, split⟩ := List.getLast?_eq_some_iff.mp last
    rw [split, List.dropLast_concat, destination_append]
    simp [destination, nextLocation]
  · rfl

/-- Names that stand for nothing but an entry of that name. -/
structure IsPlainName (name : OsText) : Prop where
  plain : slashByte ∉ name.toList
  leads : leadsOn name.toList = true
  down : name.toList ≠ [dotByte, dotByte]

instance (name : OsText) : Decidable (IsPlainName name) :=
  decidable_of_iff
    (slashByte ∉ name.toList ∧ leadsOn name.toList = true ∧ name.toList ≠ [dotByte, dotByte])
    ⟨fun ⟨plain, leads, down⟩ => ⟨plain, leads, down⟩,
      fun name => ⟨name.plain, name.leads, name.down⟩⟩

theorem destination_join (start : Location) (base : Path) (relative : path.isAbsolute = false) :
    destination start (pieces (base.join path).text.toList) =
      destination (destination start (pieces base.text.toList)) (pieces path.text.toList) := by
  rw [pieces_join base path relative, destination_append, destination_trunk]

theorem IsPlainName.next (plain : IsPlainName name) (here : Location) :
    nextLocation here name.toList = here ++ [name] := by
  have leads := plain.leads
  rw [leadsOn, Bool.and_eq_true, decide_eq_true_iff, decide_eq_true_iff] at leads
  rw [nextLocation_plain here leads.1 leads.2 plain.down]

theorem destination_child (start : Location) (base : Path) (plain : IsPlainName name) :
    destination start (pieces (base.child name).text.toList) =
      destination start (pieces base.text.toList) ++ [name] := by
  rw [child, destination_join start base (isAbsolute_of_plain plain.plain),
    pieces_plain _ plain.plain, destination, List.foldl_cons, List.foldl_nil, plain.next]

end Path

theorem Disk.walk_child {disk : Disk} (plain : Path.IsPlainName name)
    (followed : disk.walk start (pieces (Path.child base name).text.toList) = .ok location) :
    ∃ root, disk.walk start (pieces base.text.toList) = .ok root ∧
      disk.get? root = some .directory := by
  rw [Path.pieces_child base plain.plain, walk_append] at followed
  obtain ⟨root, reached, last⟩ := followed
  have folder : disk.get? root = some .directory :=
    ((walk_eq_ok_iff ..).mp last).1 root (by simp [passed])
  refine ⟨root, ?_, folder⟩
  rw [Path.trunk] at reached
  split at reached
  · rename_i slash
    obtain ⟨front, split⟩ := List.getLast?_eq_some_iff.mp slash
    rw [split, List.dropLast_concat] at reached
    rw [split, walk_append]
    refine ⟨root, reached, (walk_eq_ok_iff ..).mpr ⟨?_, ?_, ?_⟩⟩
    · simpa [passed] using folder
    · exact List.forall_mem_singleton.mpr (isShort_special (.inl rfl))
    · simp [destination, nextLocation]
  · exact reached

namespace World

variable {world after : World}

theorem freshDirectory_cases (base : Path) (start : OsText) (attempts : Nat)
    (ran : world.run (Scratch.freshDirectory base start attempts) = (result, after)) :
    (∃ cause, result = .error cause) ∨
      ∃ (name : String) (location : _), result = .ok (base.child (start ++ name)) ∧
        world.machine.disk.get? location = none ∧
        after.machine = world.machine.withDisk (world.machine.disk.put location .directory) ∧
        after.machine.locate (base.child (start ++ name)) = .ok location := by
  induction attempts generalizing world with
  | zero => cases ran; exact .inl ⟨_, rfl⟩
  | succ attempts ih =>
    rw [Scratch.freshDirectory, run_bind, run_request] at ran
    dsimp only [answer] at ran
    generalize given : ({ world with named := world.named + 1 } : World) = named at ran
    generalize world.names world.named = name at ran
    have same : named.machine = world.machine := by rw [← given]
    rw [run_bind, run_request] at ran
    rcases change_cases named.machine
      (named.machine.disk.makeDirectory named.machine.working (base.child (start ++ name))) with
      ⟨cause, -, refused⟩ | ⟨disk, created, changed⟩
    · simp only [answer, refused, withMachine] at ran
      have again : named = { named with machine := named.machine } := rfl
      rw [← again] at ran
      cases cause with
      | alreadyExists => rw [← same]; exact ih ran
      | _ => cases ran; exact .inl ⟨_, rfl⟩
    · simp only [answer, changed, withMachine] at ran
      cases ran
      obtain ⟨location, -, -, free, made, leads⟩ := Disk.makeDirectory_eq_ok created
      refine .inr ⟨name, location, rfl, ?_, ?_, Machine.locate_filter leads⟩
      · rwa [same] at free
      · rw [made, same]

/-- A working directory: everything is still there, and a unique one is new. -/
structure IsMade (before after : Machine) (parent : Path) (mode : WorkMode) (name : OsText)
    (work : WorkDirectory) : Prop where
  grows : Machine.Grows before after
  absolute : parent.isAbsolute = true → work.path.isAbsolute = true
  isText : parent.isAbsolute = true → (parent.child name).IsText → work.path.IsText
  unique : mode = .unique → work.path.isAbsolute = true ∧ ∃ location,
    before.disk.get? location = none ∧ after.disk = before.disk.put location .directory ∧
      after.locate work.path = .ok location
  fixed : mode = .fixed → work.path = parent.child name ∧
    after = before.withDirectory (parent.child name)

theorem makeWork_cases (parent : Path) (mode : WorkMode) (name : OsText)
    (ran : world.exec (WorkDirectory.make parent mode name) = (result, after)) :
    (∃ path cause, result = .error (.inaccessible path cause)) ∨
      ∃ work, result = .ok work ∧ IsMade world.machine after.machine parent mode name work := by
  cases mode with
  | unique =>
    rw [WorkDirectory.make, exec_bind, exec_orInaccessible] at ran
    rcases absolute_cases world parent with ⟨cause, lost⟩ | ⟨base, whole, absolute, based⟩
    · rw [lost] at ran; cases ran; exact .inl ⟨_, _, rfl⟩
    · replace based (own : parent.isAbsolute = true) : base = parent := by
        rcases based with same | ⟨here, rfl⟩
        · exact same
        · rw [Path.join, if_pos own]
      rw [whole] at ran
      dsimp only at ran
      rw [exec_bind, exec_orInaccessible] at ran
      cases made : world.run (Scratch.freshDirectory base name nameAttempts) with
      | mk outcome later =>
        rw [made] at ran
        rcases freshDirectory_cases base name nameAttempts made with
          ⟨cause, rfl⟩ | ⟨letters, location, rfl, free, grown, leads⟩
        · cases ran; exact .inl ⟨_, _, rfl⟩
        · cases ran
          have whole := Path.isAbsolute_join base ⟨name ++ letters⟩ absolute
          refine .inr ⟨_, rfl, ?_, fun _ => whole, fun own isText => ?_,
            fun _ => ⟨whole, location, free, by rw [grown]; rfl, leads⟩, by rintro ⟨⟩⟩
          · rw [grown]
            exact Machine.grows_withDisk (Disk.grows_put world.machine.disk free (by simp))
          · rw [based own]
            exact Path.isText_child_append isText letters
  | fixed =>
    have grows := Machine.grows_withDisk (Disk.makeDirectories_grows world.machine.disk
      world.machine.working (parent.child name))
    rw [WorkDirectory.make, exec_bind, exec_orInaccessible, run_request] at ran
    cases done : world.machine.disk.makeDirectories world.machine.working
        (parent.child name) with
    | mk outcome disk =>
      rw [done] at grows
      simp only [answer, withMachine, Machine.attempt, done] at ran
      cases outcome with
      | error cause => cases ran; exact .inl ⟨_, _, rfl⟩
      | ok made =>
        cases ran
        exact .inr ⟨_, rfl, grows, fun absolute => Path.isAbsolute_join parent _ absolute,
          fun _ isText => isText, by rintro ⟨⟩, fun _ => ⟨rfl, by rw [Machine.withDirectory, done]⟩⟩

theorem removeWork_cases (work : WorkDirectory)
    (ran : world.exec work.remove = (result, after)) :
    (∃ path cause, result = .error (.inaccessible path cause)) ∨
      result = .ok () ∧ ∃ disk,
        world.machine.disk.removeTree world.machine.working work.path = (.ok (), disk) ∧
          after.machine = world.machine.withDisk disk := by
  cases done : world.machine.disk.removeTree world.machine.working work.path with
  | mk outcome disk =>
    cases work with
    | unique path =>
      rw [exec, WorkDirectory.remove, ExceptT.run_mk, run_bind, run_request] at ran
      simp only [WorkDirectory.path] at done
      simp only [answer, withMachine, Machine.attempt, done] at ran
      cases outcome with
      | error cause => cases ran; exact .inl ⟨_, _, rfl⟩
      | ok removed => cases ran; exact .inr ⟨rfl, disk, rfl, rfl⟩
    | fixed path =>
      rw [WorkDirectory.remove, exec_orInaccessible, run_request] at ran
      simp only [WorkDirectory.path] at done
      simp only [answer, withMachine, Machine.attempt, done] at ran
      cases outcome with
      | error cause => cases ran; exact .inl ⟨_, _, rfl⟩
      | ok removed => cases ran; exact .inr ⟨rfl, disk, rfl, rfl⟩

end World

end FragmentBuild
