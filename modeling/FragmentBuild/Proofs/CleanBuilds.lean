import FragmentBuild.Proofs.CallWords
import FragmentBuild.Proofs.WorkEndings

/-! What a build leaves of a disk if its tool touches only its output and what is removed goes:
everything as it was, but for the archive that it reports, the directories that lead to the
temporary files and a working directory that other builds share. -/
namespace FragmentBuild

def wordAfter (flag : ByteArray) : List ByteArray → Option ByteArray
  | [] => none
  | word :: rest => (wordAfter flag rest).or (if word = flag then rest.head? else none)

theorem wordAfter_append (flag : ByteArray) (front : List ByteArray)
    (told : wordAfter flag back = some word) : wordAfter flag (front ++ back) = some word := by
  induction front with
  | nil => exact told
  | cons first rest ih => rw [List.cons_append, wordAfter, ih, Option.some_or]

namespace Invocation

def outputFlag : ByteArray := "-o".toUTF8

/-- Where a tool has its output: a package tool in the directory that a variable names, a
compiler at the path behind the last flag for it. -/
def Output (working : Option Location) (invocation : Invocation) (location : Location) : Prop :=
  match invocation.environment.lookup Builder.targetVariable with
  | some target => (Path.mk (.ofBytes target)).Contains working location
  | none => ∃ word, wordAfter outputFlag invocation.arguments = some word ∧
      (Path.mk (.ofBytes word)).Names working location

/-- A call that changes nothing but its output. A compiler may leave a regular file there. -/
structure KeepsToOutput (invocation : Invocation) (before left : Machine) : Prop where
  others : Disk.ChangesOnly (invocation.Output before.working) (fun _ => False) before.disk
    left.disk
  file : invocation.environment.lookup Builder.targetVariable = none →
    ∀ location, invocation.Output before.working location →
      left.disk.get? location = before.disk.get? location ∨
        ∃ contents executable, left.disk.get? location = some (.file contents executable)

end Invocation

/-- Every call in a run changes nothing but its output. -/
def OnlyOutputs (trace : List Exchange) : Prop :=
  ∀ invocation answered before left,
    (⟨.call invocation, answered, before, left⟩ : Exchange) ∈ trace →
      invocation.KeepsToOutput before left

theorem Builder.output_callFor (builder : Builder) (job : Job) (source archive : Path)
    (working : Option Location) (location : Location) :
    (builder.callFor job source archive).Output working location ↔
      archive.Names working location := by
  have last : wordAfter Invocation.outputFlag
      (builder.callFor job source archive).arguments = some archive.text.bytes := by
    rw [callFor, compilerCall]
    refine wordAfter_append _ _ ?_
    simp [wordAfter, Invocation.outputFlag]
  have plain : (builder.callFor job source archive).environment.lookup
      Builder.targetVariable = none := rfl
  rw [Invocation.Output, plain]
  dsimp only
  rw [last]
  simp only [Option.some.injEq, exists_eq_left']
  rfl

theorem Builder.output_callIn (builder : Builder) (job : Job) (work : WorkDirectory)
    (working : Option Location) (location : Location) :
    (builder.callIn job work).Output working location ↔
      (work.path.child "target").Contains working location := by
  have told : (builder.callIn job work).environment.lookup Builder.targetVariable =
      some (work.path.child "target").text.bytes := by
    simp [callIn, packageCall]
  rw [Invocation.Output, told]
  rfl

/-- A build whose disk is as it was, but for `places`, the archive that the build reports and
missing directories that were made. -/
structure CleanEnd (places made : Location → Prop) (before after : Machine)
    (result : Except Failure Path) : Prop where
  others : Disk.ChangesOnly
    (fun location => places location ∨
      ∃ archive, result = .ok archive ∧ archive.Names before.working location)
    made before.disk after.disk
  archive : ∀ archive, result = .ok archive → ∃ location contents executable,
    archive.Names before.working location ∧ before.disk.get? location = none ∧
      after.disk.get? location = some (.file contents executable)

theorem CleanEnd.failed {failure : Failure} (touches : Machine.Touches places made before after) :
    CleanEnd places made before after (.error failure) where
  others := touches.disk.weaken (fun _ => .inl) fun _ => id
  archive := nofun

theorem CleanEnd.built {path : Path} (names : path.Names before.working location)
    (free : before.disk.get? location = none)
    (stands : after.disk.get? location = some (.file contents executable))
    (touches : Machine.Touches (fun other => places other ∨ other = location) made before after) :
    CleanEnd places made before after (.ok path) where
  others := touches.disk.weaken
    (fun _ => .imp_right fun same => ⟨path, rfl, same ▸ names⟩) fun _ => id
  archive := by
    intro archive same
    cases same
    exact ⟨location, contents, executable, names, free, stands⟩

namespace Builder

/-- The part of a direct build that makes the archive. -/
def compileDirect (builder : Builder) (job : Job) (source : Path) : Task Path := do
  let archive ← builder.scratch.archivePath
  Task.onFailure
    (do
      builder.report (.phase 4 ("Compiling " ++ source.display ++ " -> " ++ archive.display))
      builder.callTool (builder.callFor job source archive) "compilation")
    [.discardFile archive]
  return archive

theorem buildDirect_eq (builder : Builder) (job : Job) :
    builder.buildDirect job = (do
      let source ← builder.scratch.sourceFile job.source
      (builder.compileDirect job source).thenDiscard [.discardFile source]) := rfl

end Builder

namespace World

open Machine (Touches)

variable {mishap : Mishap} {world after : World} {trace : List Exchange}

/-- Whatever a compiler does with the file that stands at the path it was told, a file is left
there, and nothing else has changed. -/
theorem found_of_callFor {builder : Builder} {before left : Machine}
    (keeps : (builder.callFor job source archive).KeepsToOutput before left)
    (changed : left = before.withDisk left.disk)
    (found : before.find archive = .ok (location, .file old mode)) :
    Touches (· = location) (fun _ => False) before left ∧
      ∃ contents executable, left.find archive = .ok (location, .file contents executable) := by
  obtain ⟨leads, stood⟩ := (Machine.find_eq_ok_iff ..).mp found
  have told (place : Location) :
      (builder.callFor job source archive).Output before.working place ↔ place = location := by
    rw [builder.output_callFor]
    exact ⟨fun names => names.eq (Path.names_of_locate leads),
      fun same => same ▸ Path.names_of_locate leads⟩
  have changes : Disk.ChangesOnly (· = location) (fun _ => False) before.disk left.disk :=
    keeps.others.weaken (fun place => (told place).mp) fun _ => id
  obtain ⟨contents, executable, stands⟩ : ∃ contents executable,
      left.disk.get? location = some (.file contents executable) := by
    rcases keeps.file rfl location ((told location).mpr rfl) with same | written
    · exact ⟨_, _, same.trans stood⟩
    · exact written
  rw [changed]
  refine ⟨Machine.touches_withDisk changes, contents, executable,
    Machine.find_withDisk (changes.keepsDirectories ?_) leads stands⟩
  rintro _ rfl
  rw [stood]
  simp

end World

end FragmentBuild
