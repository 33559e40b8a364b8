import FragmentBuild.Job
import FragmentBuild.Scratch

/-! Building a job into a static archive. A unit without dependencies is compiled by one call
of the compiler; one with dependencies is built as a package in a directory of its own, from
which the archive is moved away. The archive belongs to the caller; everything else that a
build made is gone when it ends. -/
namespace FragmentBuild

structure Builder where
  settings : Settings
  scratch : Scratch

namespace Builder

def ofSettings (settings : Settings) : Program Builder := do
  return ⟨settings, ← Scratch.ofToolchain settings.toolchain⟩

def report (builder : Builder) (event : Event) : Task Unit :=
  ExceptT.lift (Program.report builder.settings.verbosity event)

/-- Calls a tool, which has to succeed. -/
def callTool (builder : Builder) (invocation : Invocation) (action : String) : Task Unit := do
  builder.report (.topic .build invocation.display)
  match ← Program.request (.call invocation) with
  | .error cause => Task.fail (.notStarted invocation.program cause)
  | .ok report =>
    if !report.success then
      builder.report
        (.topic .build (invocation.program ++ " exited with " ++ report.codeText))
      Task.fail (.toolFailed invocation.program action report.diagnostics)

def compilerCall (toolchain : Toolchain) (extraArguments : List String)
    (source archive : Path) : Invocation where
  program := toolchain.compiler
  arguments :=
    (["--crate-type=staticlib"]
      ++ (toolchain.edition.map fun edition => "--edition=" ++ edition).toList
      ++ extraArguments).map String.toUTF8
      ++ [source.text.bytes, "-o".toUTF8, archive.text.bytes]

def buildDirect (builder : Builder) (job : Job) : Task Path := do
  let source ← builder.scratch.sourceFile job.source
  Task.thenDiscard
    (do
      let archive ← builder.scratch.archivePath
      Task.onFailure
        (do
          builder.report (.phase 4 ("Compiling " ++ source.display ++ " -> " ++ archive.display))
          builder.callTool
            (compilerCall builder.settings.toolchain job.extraArguments source archive)
            "compilation")
        [.discardFile archive]
      return archive)
    [.discardFile source]

def targetVariable : String := "CARGO_TARGET_DIR"

/-- The path of the manifest is a word as it is shown, that of the directory for output is the path
itself. -/
def packageCall (toolchain : Toolchain) (extraArguments : List String)
    (manifest target : Path) : Invocation where
  program := toolchain.packageTool
  arguments :=
    (["rustc", "--release", "--manifest-path=" ++ manifest.display, "--"]
      ++ extraArguments).map String.toUTF8
  environment := [(targetVariable, target.text.bytes)]

/-- Where a package build leaves its archive. -/
def builtArchive (target : Path) : Path :=
  (target.child "release").child (archiveName Manifest.libraryName)

def writeFile (path : Path) (text : String) : Task Unit :=
  Task.orInaccessible path (Program.request (.write path text.toUTF8))

def buildPackage (builder : Builder) (job : Job) (manifest : String) : Task Path := do
  let toolchain := builder.settings.toolchain
  let work ← WorkDirectory.make job.workRoot toolchain.workMode toolchain.workName
  let sourcePath := work.path.child Manifest.sourceFileName
  let manifestPath := work.path.child Manifest.fileName
  let target := work.path.child "target"
  let archive ← Task.onFailure
    (do
      writeFile sourcePath job.source
      writeFile manifestPath manifest
      builder.report (.trace ("manifest " ++ manifestPath.display ++ ":\n" ++ manifest))
      builder.report (.phase 4 ("Building " ++ manifestPath.display))
      builder.callTool (packageCall toolchain job.extraArguments manifestPath target) "build"
      let archive ← builder.scratch.relocate (builtArchive target)
      builder.report
        (.topic .build ("moved " ++ (builtArchive target).display ++ " -> " ++ archive.display))
      return archive)
    work.givenUp
  work.remove
  return archive

/-- Builds a job and gives the path of the archive. -/
def build (builder : Builder) (job : Job) : Task Path := do
  builder.report (.debug ("build strategy " ++ job.strategy.name))
  match job.manifest with
  | none => builder.buildDirect job
  | some manifest => builder.buildPackage job manifest

end Builder

end FragmentBuild
