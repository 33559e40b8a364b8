import FragmentBuild.Proofs.OwnPackages
import FragmentBuild.Proofs.StaleArchives

/-! Builds in processes of their own that share a directory for scratch files and one for their
work. However they take turns, each of them gives its tool its own texts, has its own files, and
hands on what its own tool has made. -/
namespace FragmentBuild

structure Start where
  builder : Builder
  job : Job
  world : World

namespace Start

def workName (start : Start) : String := start.builder.settings.toolchain.workName

def process (start : Start) : Process (Except Failure Path) :=
  ⟨start.world, (start.builder.build start.job).run⟩

variable {ι : Type} {mishap : Mishap} {scratch root : Path} {starts : ι → Start}
  {trace : List (ι × Exchange)} {processes : ι → Process (Except Failure Path)}

/-- Where builds work that share two directories. A slash in the name for work directories leads
elsewhere. -/
def site (scratch root : Path) (starts : ι → Start) : Site where
  scratch := scratch
  bases base := ∃ index, (starts index).job.manifest ≠ none ∧
    base = root.within (starts index).workName

/-- Builds on one disk that share a directory for scratch files and one for their work. None of
them works in a fixed directory. -/
structure Share (scratch root : Path) (starts : ι → Start) : Prop where
  disk : ∀ index other,
    (starts index).world.machine.disk = (starts other).world.machine.disk
  tree : ∀ index, (starts index).world.machine.disk.IsTree
  names : ∀ index number, IsGivenName ((starts index).world.names number)
  tools : ∀ index, Tool.KeepsTree (starts index).world.tool
  scratch : ∀ index, (starts index).builder.scratch.root.Becomes
    (starts index).world.machine.working scratch
  package : ∀ index, (starts index).job.manifest ≠ none →
    (starts index).job.workRoot.Becomes (starts index).world.machine.working root ∧
      (starts index).builder.settings.toolchain.workMode = .unique

variable [DecidableEq ι]

/-- A direct build whose compiler leaves its placeholder alone, and a package build. -/
def small : Bool → Start
  | false => ⟨.small .unique, .small, .small ScriptedTool.idle.tool⟩
  | true => ⟨.small .unique, .package, .small (ScriptedTool.archive "A".toUTF8).tool⟩

/-- Builds that share two directories have taken turns. Every tool has kept to its output, every
removal was a success, and no work directory was made above the place of scratch files. -/
structure Shared (scratch root : Path) (starts : ι → Start) (trace : List (ι × Exchange))
    (processes : ι → Process (Except Failure Path)) : Prop where
  share : Share scratch root starts
  ran : Process.Interleaves .refusals (fun index => (starts index).process) trace processes
  outputs : ∀ index, OnlyOutputs (Process.ownTrace index trace)
  clears : ∀ entry ∈ trace, entry.2.Clears
  outside : ∀ index path before left,
    (index, (⟨.makeDirectory path, .ok (), before, left⟩ : Exchange)) ∈ trace →
      ¬ path.place <+: scratch.place

theorem Shared.takeTurns (share : Share scratch root starts) (turns : List ι)
    (checked : ∀ entry ∈ (Process.takeTurns (fun index => (starts index).process) turns).1,
      entry.2.isOrderly = true ∧ entry.2.leavesFree [scratch.place] = true) :
    Shared scratch root starts
      (Process.takeTurns (fun index => (starts index).process) turns).1
      (Process.takeTurns (fun index => (starts index).process) turns).2 where
  share := share
  ran := by
    have begun : Process.Interleaves .refusals (fun index => (starts index).process) [] _ := .start
    simpa using begun.takeTurns turns
  outputs index := onlyOutputs_of_isOrderly fun exchange member =>
    (checked _ (Process.mem_ownTrace.mp member)).1
  clears entry member := clears_of_isOrderly (checked entry member).1
  outside index path before left member :=
    (Exchange.apart_of_leavesFree (checked _ member).2 List.mem_cons_self).2

/-- Two package builds, the second of which makes its directories in a directory that has the name
of one that the first makes for itself. -/
def nested (index : Bool) : Start where
  builder :=
    { Builder.small .unique with
      settings.toolchain.workName := if index then "aaaaaa/" else "" }
  job := .package
  world := .small (if index then ScriptedTool.idle else .archive "A".toUTF8).tool

/-- A package build whose tool leaves a link for an archive. -/
def linked (_ : Unit) : Start :=
  ⟨.small .unique, .package, .small (ScriptedTool.linkedArchive "A".toUTF8).tool⟩

end Start

end FragmentBuild
