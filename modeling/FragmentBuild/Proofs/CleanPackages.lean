import FragmentBuild.Proofs.CleanBuilds

/-! What package builds leave of a disk. All that is done in the working directory stays inside
it, until the directory is removed or, if it is the build's own, given up. -/
namespace FragmentBuild

theorem strictlyBelow_of_child (inside : root ++ [name] <+: location) :
    StrictlyBelow root location := by
  refine ⟨(List.prefix_append _ _).trans inside, ?_⟩
  rintro rfl
  have shorter := inside.length_le
  rw [List.length_append, List.length_singleton] at shorter
  omega

namespace Path

variable {working : Option Location} {path : Path} {location : Location}

def HasInside (working : Option Location) (path : Path) (location : Location) : Prop :=
  ∃ root, path.Names working root ∧ StrictlyBelow root location

theorem HasInside.contains (inside : path.HasInside working location) :
    path.Contains working location :=
  inside.imp fun _ both => ⟨both.1, both.2.1⟩

theorem HasInside.of_stays (stays : ∀ here, working = some here → earlier = some here)
    (inside : path.HasInside working location) : path.HasInside earlier location :=
  inside.imp fun _ both => ⟨both.1.of_stays stays, both.2⟩

theorem HasInside.of_child (plain : IsPlainName name)
    (contains : (path.child name).Contains working location) :
    path.HasInside working location := by
  obtain ⟨_, names, inside⟩ := contains
  obtain ⟨root, leads, rfl⟩ := (names_child_iff path plain).mp names
  exact ⟨root, leads, strictlyBelow_of_child inside⟩

theorem Names.hasInside (names : path.Names working root)
    (own : location = root ++ [(Manifest.sourceFileName : OsText)] ∨
      location = root ++ [(Manifest.fileName : OsText)]) :
    path.HasInside working location := by
  rcases own with rfl | rfl
  all_goals exact ⟨root, names, strictlyBelow_of_child (List.prefix_refl _)⟩

end Path

namespace Builder

theorem hasInside_of_told (work : WorkDirectory)
    (names : (toldIn work).Names working location) : work.path.HasInside working location := by
  have release := (Path.Contains.of_child isPlainName_archive names.contains).of_child
    isPlainName_release
  exact .of_child isPlainName_target release

end Builder

/-- The work in a directory is done: outside the directory only the archive is new. -/
structure ArchivedFrom (names : Nat → String) (root work : Path) (before after : Machine)
    (archive : Path) (location : Location) : Prop where
  named : ∃ number, Path.IsWhole before.working
    (root.child (Scratch.filePrefix ++ names number ++ ".a")) archive
  free : ¬ work.HasInside before.working location → before.disk.get? location = none
  found : ∃ contents executable, after.find archive = .ok (location, .file contents executable)
  touches : Machine.Touches
    (fun other => work.HasInside before.working other ∨ other = location)
    (root.OnWay before.working) before after
  enters : ∃ place, after.Enters work place

/-- A world as systems have it: the disk is a tree, the working directory can be written as a
path, and no name that is given out has a slash in it. -/
structure World.IsProper (world : World) : Prop where
  tree : world.machine.disk.IsTree
  working : ∀ here, world.machine.working = some here → IsPlainLocation here
  names : ∀ number, '/' ∉ (world.names number).toList

/-- Whatever a removed path has named is gone, and the removal says so. -/
def Exchange.Clears : Exchange → Prop
  | ⟨.removeTree path, answered, before, left⟩ =>
    ∀ root, path.Names before.working root → before.disk.get? root ≠ none →
      answered = .ok () ∧ ∀ location, root <+: location → left.disk.get? location = none
  | ⟨.discardTree path, _, before, left⟩ =>
    ∀ root, path.Names before.working root → before.disk.get? root ≠ none →
      ∀ location, root <+: location → left.disk.get? location = none
  | _ => True

theorem isPlainName_scratchFile (plain : '/' ∉ (name : String).toList)
    (plainToo : slashByte ∉ (ending : OsText).toList) :
    Path.IsPlainName (Scratch.filePrefix ++ name ++ ending) := by
  have shape : (Scratch.filePrefix ++ name ++ ending).toList =
      103 :: ((OsText.ofText "raft-").toList ++ (OsText.ofText name).toList ++ ending.toList) := rfl
  have noSlash : slashByte ∉ (OsText.ofText "raft-").toList := by decide
  have other : slashByte ≠ 103 ∧ (103 : UInt8) ≠ dotByte := by decide
  refine ⟨?_, ?_, ?_⟩
  · simp [shape, slashByte_mem_ofText, plain, plainToo, noSlash, other]
  · simp [shape, leadsOn, other]
  · simp [shape, other]

theorem ArchivedFrom.outside {before later : Machine}
    (archived : ArchivedFrom given root work before later archive location)
    (working : ∀ here, before.working = some here → IsPlainLocation here)
    (plain : ∀ number, '/' ∉ (given number).toList)
    (apart : ∀ place, root.Names before.working place → ¬ work.Contains before.working place) :
    archive.Names before.working location ∧ ¬ work.Contains before.working location := by
  obtain ⟨number, isWhole⟩ := archived.named
  obtain ⟨contents, executable, found⟩ := archived.found
  obtain ⟨leads, stands⟩ := (Machine.find_eq_ok_iff ..).mp found
  have names := (Path.names_of_locate leads).of_absolute isWhole.1 before.working
  refine ⟨names, ?_⟩
  obtain ⟨place, leadsThere, rfl⟩ :=
    (Path.names_child_iff root (isPlainName_scratchFile (plain number) (by decide))).mp
      ((isWhole.names_iff working).mp names)
  rintro ⟨top, named, inside⟩
  rcases List.prefix_concat_iff.mp inside with same | above
  · obtain ⟨entered, enters⟩ := archived.enters
    obtain rfl := (enters.names.of_stays archived.touches.stays).eq named
    have folder := enters.stands
    rw [same, ← List.concat_eq_append, List.concat_eq_append, stands] at folder
    cases folder
  · exact apart place leadsThere ⟨top, named, above⟩

namespace World

open Machine (Touches)

variable {mishap : Mishap} {world after : World} {trace : List Exchange}

end World

end FragmentBuild
