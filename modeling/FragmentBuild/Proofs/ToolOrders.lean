import FragmentBuild.Proofs.CleanPackages
import FragmentBuild.Proofs.ExaminedPaths
import FragmentBuild.Proofs.WrittenTexts

/-! What a tool is told to do, word by word, and what was prepared for it. Main statement: a build
calls one tool with the words for its job, the configured extra arguments between or behind them
as they are; the files that these words name hold the job, and the archive is looked for nowhere
but where the tool was told to leave it. -/
namespace FragmentBuild

/-- No tool is called and no file is looked for. -/
structure IsAside (trace : List Exchange) : Prop where
  calls : callsIn trace = []
  examined : ∀ exchange ∈ trace, exchange.request.examined? = none

theorem IsAside.append (first : IsAside front) (second : IsAside back) :
    IsAside (front ++ back) where
  calls := by rw [callsIn_append, first.calls, second.calls]; rfl
  examined := by
    intro exchange member
    rcases List.mem_append.mp member with here | later
    · exact first.examined exchange here
    · exact second.examined exchange later

/-- A call of the package tool on a description of a package, beside which the source of a job
lies, and the directory that it is to work in. The path of the description is written as it is
shown, and so is told only if it is text. The build looks below that directory only. -/
structure PackagesIn (toolchain : Toolchain) (job : Job) (manifest : String) (before : Machine)
    (trace : List Exchange) (result : Except Failure Path) (invocation : Invocation)
    (machine : Machine) (description target : Path) : Prop where
  program : invocation.program = toolchain.packageTool
  arguments : invocation.arguments =
    (["rustc", "--release", "--manifest-path=" ++ description.display, "--"]
      ++ job.extraArguments).map String.toUTF8
  told : description.IsText → invocation.manifestPath? = some description
  behind : (invocation.argumentTexts.dropWhile (· != "--")).tail = job.extraArguments
  environment : invocation.environment = [("CARGO_TARGET_DIR", target.text.bytes)]
  directory : invocation.directory = none
  files : before.KeepsFiles toolchain job.workRoot → ∃ folder : Path,
    description = folder.child "Cargo.toml" ∧
      (∃ location executable,
        machine.reach description = .ok (location, .file manifest.toUTF8 executable)) ∧
      ∃ location executable, machine.reach (folder.child "quasiquote.rs") =
        .ok (location, .file job.source.toUTF8 executable)
  examined : ∀ exchange ∈ trace, ∀ path, exchange.request.examined? = some path →
    path.text = target.text ++ "/release/libquasiquote.a"
  missing : ∀ path, result = .error (.archiveMissing path) →
    path.text = target.text ++ "/release/libquasiquote.a"

theorem PackagesIn.prepend {before machine : Machine} {description target : Path}
    (packages : PackagesIn toolchain job manifest before trace result invocation machine
      description target) (aside : IsAside front) :
    PackagesIn toolchain job manifest before (front ++ trace) result invocation machine
      description target where
  __ := packages
  examined := by
    intro exchange asked path examined
    rcases List.mem_append.mp asked with early | later
    · rw [aside.examined exchange early] at examined
      cases examined
    · exact packages.examined exchange later path examined

namespace Path

end Path

namespace Builder

end Builder

namespace World

open Machine (Touches)

variable {mishap : Mishap} {world after : World} {trace : List Exchange}

theorem Ends.within {task : Task α} (within : task.Within allowed failing)
    (ended : Ends mishap world task trace result after) :
    (∀ exchange ∈ trace, allowed exchange.request) ∧
      ∀ failure, result = .error failure → failing failure :=
  Runs.within within ended

end World

end FragmentBuild
