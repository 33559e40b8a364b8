import FragmentBuild.Shell.Given
import FragmentBuild.Shell.Redirect
import FragmentBuild.Shell.Report

/-! A program that removes files and links, and directories with all that is in them if it is
told to. -/
namespace FragmentBuild.Shell.Removals

def isOwnDirectory (target : Bytes) : Bool :=
  let last := ((target.reverse.dropWhile (· == '/')).takeWhile (· != '/')).reverse
  last == ['.'] || last == ['.', '.']

def isRoot (target : Bytes) : Bool := !target.isEmpty && target.all (· == '/')

/-- What comes of a removal, and the disk that it leaves. -/
def attempt (isDeep : Bool) (target : Path) (disk : Disk) (working : Option Location) :
    Except SystemError Unit × Disk :=
  match disk.find working target with
  | .ok (_, .directory) =>
    if isDeep then disk.removeTree working target else (.error .isADirectory, disk)
  | _ =>
    match disk.removeFile working target with
    | .ok left => (.ok (), left)
    | .error error => (.error error, disk)

def removeOne (given : Given) (target : Bytes) : Action Bool := do
  let isDeep := given.has "rR"
  if isDeep && isOwnDirectory target then
    Report.complain
      (ofString "refusing to remove '.' or '..' directory: skipping " ++ inQuotes target)
    return false
  else if isDeep && isRoot target then
    Report.complain (ofString "it is dangerous to operate recursively on '/'")
    Report.complain (ofString "use --no-preserve-root to override this failsafe")
    return false
  else
    let state ← get
    let (result, disk) :=
      attempt isDeep (shellPath target) state.system.disk state.process.working
    set { state with system.disk := disk }
    match result with
    | .ok () => return true
    | .error error => do
      if given.has "f" && (error = .notFound || error = .notADirectory) then return true
      else
        Report.complainAbout (ofString "cannot remove " ++ inQuotes target) error
        return false

def forms : List OptionForm :=
  [⟨'f', "force", false⟩, ⟨'r', "recursive", false⟩, ⟨'R', "recursive", false⟩]

def program (arguments : List Bytes) : Action Nat := do
  match Given.read forms arguments with
  | .error text => Report.refuseUsage text
  | .ok given => do
    if given.words.isEmpty && !given.has "f" then
      Report.refuseUsage (ofString "missing operand")
    else
      let removed ← given.words.mapM (removeOne given)
      return if removed.all id then 0 else 1

end FragmentBuild.Shell.Removals
