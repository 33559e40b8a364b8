import FragmentBuild.Shell.Process
import FragmentBuild.Shell.Field

/-! Which program a name starts. A name without a slash is looked for in the directories of the
search path, and a file that begins with `#!` names the program that it is for. -/
namespace FragmentBuild.Shell

/-- The programs that are there without a file of their own. -/
inductive Utility where
  | shell
  | succeed
  | fail
  | makeDirectories
  | concatenate
  | makeLinks
  | remove
  /-- Runs another program with more variables. -/
  | environment
  deriving DecidableEq

namespace Utility

def named : List (String × Utility) :=
  [("sh", .shell), ("dash", .shell), ("true", .succeed), ("false", .fail),
    ("mkdir", .makeDirectories), ("cat", .concatenate), ("ln", .makeLinks),
    ("rm", .remove), ("env", .environment)]

def at? (location : Location) : Option Utility :=
  match location.mapM OsText.text? with
  | some ["bin", name] | some ["usr", "bin", name] => named.lookup name
  | _ => none

end Utility

structure Launch where
  utility : Utility
  name : Bytes
  arguments : List Bytes

namespace Launch

def shellFile : Bytes := "/bin/sh".toList

/-- What runs a file that does not say what it is for. -/
def ofScript (file : Bytes) (arguments : List Bytes) : Launch :=
  ⟨.shell, shellFile, file :: arguments⟩

/-- The program that a file is for, and one argument in front of the file's own name. -/
def interpreter? (contents : Bytes) : Option (Bytes × Option Bytes) :=
  match contents with
  | '#' :: '!' :: rest =>
    let isGap := fun c => c == ' ' || c == '\t'
    let line := (rest.takeWhile (· != '\n')).dropWhile isGap
    let (program, rest) := line.span fun c => !isGap c
    let argument := ((rest.dropWhile isGap).reverse.dropWhile isGap).reverse
    if program.isEmpty then none
    else some (program, if argument.isEmpty then none else some argument)
  | _ => none

def ofPath (disk : Disk) (working : Option Location) :
    Nat → Bytes → Bytes → List Bytes → Except SystemError Launch
  | 0, _, _, _ => throw .tooManyLinks
  | fuel + 1, file, name, arguments => do
    let location ← disk.aim working (shellPath file)
    match Utility.at? location, disk.get? location with
    | some utility, _ => return ⟨utility, name, arguments⟩
    | none, none => throw .notFound
    | none, some (.file contents true) =>
      match interpreter? (ofByteArray contents) with
      | none => throw .notExecutable
      | some (program, argument) =>
        ofPath disk working fuel program program (argument.toList ++ file :: arguments)
    | none, some _ => throw .permissionDenied

def interpreterLimit : Nat := 6

/-- The files that a name may stand for, in the order in which they are tried. -/
def candidates (searchPath name : Bytes) : List Bytes :=
  if name.contains '/' then [name]
  else
    (searchPath.splitOn ':').map fun directory =>
      if directory.isEmpty then name else directory ++ '/' :: name

/-- What the first file that can be started runs, or else why it cannot be. A file that may not
be started counts only if no other is found. A file that does not say what it is for is a script,
if scripts are asked for. -/
def first (disk : Disk) (working : Option Location) (asScript : Bool) (name : Bytes)
    (arguments : List Bytes) : List Bytes → Except SystemError Launch
  | [] => throw .notFound
  | file :: rest =>
    match ofPath disk working interpreterLimit file name arguments with
    | .error .notFound | .error .notADirectory => first disk working asScript name arguments rest
    | .error .permissionDenied =>
      match first disk working asScript name arguments rest with
      | .error .notFound => throw .permissionDenied
      | result => result
    | .error .notExecutable =>
      if asScript then return ofScript file arguments else throw .notExecutable
    | result => result

def isRunnable (disk : Disk) (working : Option Location) (file : Bytes) : Bool :=
  match disk.aim working (shellPath file) with
  | .error _ => false
  | .ok location =>
    (Utility.at? location).isSome ||
      match disk.get? location with
      | some (.file _ isExecutable) => isExecutable
      | _ => false

def fileFor (disk : Disk) (working : Option Location) (searchPath name : Bytes) :
    Except SystemError Bytes :=
  let files := candidates searchPath name
  match files.find? (isRunnable disk working) with
  | some file => .ok file
  | none =>
    if files.any fun file => disk.isPresent working (shellPath file) then .error .permissionDenied
    else .error .notFound

end Launch

end FragmentBuild.Shell
