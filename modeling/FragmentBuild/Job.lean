import FragmentBuild.Collector
import FragmentBuild.Manifest
import FragmentBuild.Settings

/-! What a build is given: the texts made of a unit's state, and where to work. -/
namespace FragmentBuild

inductive Strategy where
  /-- One call of the compiler on one source file. -/
  | direct
  /-- A package build, which fetches dependencies. -/
  | manifest
  deriving DecidableEq, Repr

def Strategy.name : Strategy → String
  | .direct => "Direct"
  | .manifest => "Manifest"

structure Job where
  source : String
  /-- Present for units with dependencies. -/
  manifest : Option String
  extraArguments : List String
  /-- Where the working directory of a package build is made. -/
  workRoot : Path
  deriving DecidableEq, Repr

namespace Job

def strategy (job : Job) : Strategy := if job.manifest.isSome then .manifest else .direct

def ofState (state : UnitState) (toolchain : Toolchain) (workRoot : Path) : Job where
  source := sourceText state.fragments
  manifest :=
    if state.hasDependencies then
      some (Manifest.ofDependencies state.dependencies toolchain.edition).render
    else none
  extraArguments := toolchain.extraArguments
  workRoot := workRoot

def synthesized (state : UnitState) : Event :=
  .topic .synthesis (toString state.fragments.length ++ " source lines, manifest: "
    ++ if state.hasDependencies then "true" else "false")

end Job

end FragmentBuild
