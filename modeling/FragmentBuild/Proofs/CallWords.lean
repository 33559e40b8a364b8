import FragmentBuild.ScriptedTool
import FragmentBuild.ToolInput
import FragmentBuild.Proofs.PathPieces

/-! What a tool is told by the words and variables of its call: which files to read and where
to leave the archive. -/
namespace FragmentBuild

namespace Builder

variable (toolchain : Toolchain) (extraArguments : List String)

theorem isPackageCall_compilerCall (source archive : Path) :
    (compilerCall toolchain extraArguments source archive).isPackageCall = false := rfl

theorem isPackageCall_packageCall (manifest target : Path) :
    (packageCall toolchain extraArguments manifest target).isPackageCall = true := by
  simp [packageCall, Invocation.isPackageCall]

theorem archivePath_compilerCall (source archive : Path) :
    ScriptedTool.archivePath (compilerCall toolchain extraArguments source archive) =
      archive := by
  have last : (compilerCall toolchain extraArguments source archive).arguments.getLast? =
      some archive.text.bytes := by
    simp only [compilerCall, List.getLast?_append]
    rfl
  have plain : (compilerCall toolchain extraArguments source archive).environment.lookup
      targetVariable = none := rfl
  rw [ScriptedTool.archivePath, plain]
  dsimp only
  rw [last, Option.getD_some]
  rfl

theorem archivePath_packageCall (manifest target : Path) :
    ScriptedTool.archivePath (packageCall toolchain extraArguments manifest target) =
      builtArchive target := by
  have told : (packageCall toolchain extraArguments manifest target).environment.lookup
      targetVariable = some target.text.bytes := by
    simp [packageCall]
  rw [ScriptedTool.archivePath, told]
  rfl

/-- The compiler reads the source file it is given; a path that starts with a slash is not
taken for a flag. -/
theorem sourcePath?_compilerCall (source archive : Path) (absolute : archive.isAbsolute = true) :
    (compilerCall toolchain extraArguments source archive).sourcePath? = some source := by
  have notFlag : archive.text ≠ "-o" := by
    intro flag
    rw [Path.isAbsolute, flag] at absolute
    exact absurd absolute (by decide)
  have manifest : (compilerCall toolchain extraArguments source archive).manifestPath? = none := rfl
  have direct := isPackageCall_compilerCall toolchain extraArguments source archive
  obtain ⟨before, words⟩ : ∃ before,
      (compilerCall toolchain extraArguments source archive).words =
        before ++ [source.text, ("-o" : OsText), archive.text] := ⟨_, List.map_append⟩
  rw [Invocation.sourcePath?, manifest]
  dsimp only
  rw [direct, words]
  simp [notFlag]

/-- The package tool is told the path of the manifest as it is shown. -/
theorem manifestPath?_packageCall (manifest target : Path) :
    (packageCall toolchain extraArguments manifest target).manifestPath? =
      some (.ofText manifest.display) := by
  let flag := OsText.ofText "--manifest-path="
  have first : restAfter? flag.toList (OsText.ofText "rustc").toList = none := by decide
  have second : restAfter? flag.toList (OsText.ofText "--release").toList = none := by decide
  have third : restAfter? flag.toList
      (OsText.ofText ("--manifest-path=" ++ manifest.display)).toList =
        some (OsText.ofText manifest.display).toList :=
    restAfter?_eq_some_iff.mpr (congrArg OsText.toList (OsText.ofText_append _ _))
  obtain ⟨behind, words⟩ : ∃ behind,
      (packageCall toolchain extraArguments manifest target).words =
        ("rustc" : OsText) :: ("--release" : OsText) ::
          OsText.ofText ("--manifest-path=" ++ manifest.display) :: behind := ⟨_, rfl⟩
  rw [Invocation.manifestPath?, if_pos (isPackageCall_packageCall ..), words]
  simp only [List.findSome?_cons, flag] at first second third ⊢
  simp only [first, second, third, Option.map_some]
  rfl

end Builder

end FragmentBuild
