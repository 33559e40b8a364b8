import FragmentBuild.Program
import FragmentBuild.Settings

/-! Temporary files and working directories of builds. Each gets a name that is not in use;
whoever asked for it owns it until it is removed, given up or handed on. -/
namespace FragmentBuild

structure Scratch where
  root : Path
  deriving DecidableEq, Repr

def absolute (path : Path) : Program (Except SystemError Path) :=
  if path.isAbsolute then pure (.ok path)
  else do
    match ← Program.request .workingDirectory with
    | .ok working => return .ok (working.join path)
    | .error cause => return .error cause

def nameAttempts : Nat := 65536

def archiveName (library : String) : String := "lib" ++ library ++ ".a"

namespace Scratch

def systemRoot : Program Path := do
  return ⟨(← Program.request (.environment "TMPDIR")).getD "/tmp"⟩

def ofToolchain (toolchain : Toolchain) : Program Scratch :=
  match toolchain.scratchRoot with
  | some root => pure ⟨root⟩
  | none => do return ⟨← systemRoot⟩

def filePrefix : OsText := "graft-"

/-- Makes an empty file under a name that is not in use. -/
def freshFile (root : Path) (suffix : OsText) : Nat → Program (Except SystemError Path)
  | 0 => pure (.error (.atPath .namesExhausted root))
  | attempts + 1 => do
    let name : String ← Program.request .freshName
    match ← absolute (root.child (filePrefix ++ name ++ suffix)) with
    | .error cause => return .error cause
    | .ok path =>
      match ← Program.request (.createFile path) with
      | .ok () => return .ok path
      | .error .alreadyExists => freshFile root suffix attempts
      | .error cause => return .error (.atPath cause path)

def freshDirectory (base : Path) (start : OsText) : Nat → Program (Except SystemError Path)
  | 0 => pure (.error (.atPath .namesExhausted base))
  | attempts + 1 => do
    let name : String ← Program.request .freshName
    let path := base.child (start ++ name)
    match ← Program.request (.makeDirectory path) with
    | .ok () => return .ok path
    | .error .alreadyExists => freshDirectory base start attempts
    | .error cause => return .error (.atPath cause path)

def makeRoot (scratch : Scratch) : Task Unit :=
  Task.orInaccessible scratch.root (Program.request (.makeDirectories scratch.root))

def newFile (scratch : Scratch) (suffix : OsText) : Task Path := do
  scratch.makeRoot
  Task.orInaccessible scratch.root (freshFile scratch.root suffix nameAttempts)

/-- Writes a source text to a new file, which the caller owns. -/
def sourceFile (scratch : Scratch) (contents : String) : Task Path := do
  let path ← scratch.newFile ".rs"
  (Task.orInaccessible path (Program.request (.write path contents.toUTF8))).onFailure
    [.discardFile path]
  return path

/-- Reserves the path of an archive by an empty file, which the caller owns. -/
def archivePath (scratch : Scratch) : Task Path := scratch.newFile ".a"

/-- Moves a file onto another, or copies it where moving is not possible and then removes
it. -/
def move (source target : Path) : Task Unit := do
  match ← Program.request (.rename source target) with
  | .ok () => return
  | .error _ =>
    Task.orInaccessible source (Program.request (.copy source target))
    Task.orInaccessible source (Program.request (.removeFile source))

def relocate (scratch : Scratch) (built : Path) : Task Path := do
  if !(← Program.request (.isFile built)) then
    Task.fail (.archiveMissing built)
  let target ← scratch.archivePath
  (move built target).onFailure [.discardFile target]
  return target

end Scratch

/-- The working directory of a package build. A unique one goes when it is given up, a fixed
one only when it is removed. -/
inductive WorkDirectory where
  | unique (path : Path)
  | fixed (path : Path)
  deriving DecidableEq, Repr

namespace WorkDirectory

def path : WorkDirectory → Path
  | .unique path | .fixed path => path

def make (parent : Path) (mode : WorkMode) (name : OsText) : Task WorkDirectory :=
  match mode with
  | .unique => do
    let base ← Task.orInaccessible parent (absolute parent)
    return .unique (← Task.orInaccessible parent (Scratch.freshDirectory base name nameAttempts))
  | .fixed => do
    let path := parent.child name
    Task.orInaccessible path (Program.request (.makeDirectories path))
    return .fixed path

def remove : WorkDirectory → Task Unit
  | .unique path => ExceptT.mk do
    match ← Program.request (.removeTree path) with
    | .ok () => return .ok ()
    | .error cause => return .error (.inaccessible path (.atPath cause path))
  | .fixed path => Task.orInaccessible path (Program.request (.removeTree path))

def givenUp : WorkDirectory → List Request
  | .unique path => [.discardTree path]
  | .fixed _ => []

end WorkDirectory

end FragmentBuild
