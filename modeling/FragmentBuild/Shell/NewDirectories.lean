import FragmentBuild.Shell.Given
import FragmentBuild.Shell.Redirect
import FragmentBuild.Shell.Report

/-! A program that makes directories, if need be with those that lead to them. -/
namespace FragmentBuild.Shell.NewDirectories

def isMode (text : Bytes) : Bool :=
  let isClause := fun (clause : Bytes) =>
    let rest := clause.dropWhile ("ugoa".toList.contains ·)
    !rest.isEmpty && "+-=".toList.contains (rest.headD 'a') &&
      rest.all ("+-=rwxXstugo".toList.contains ·)
  if !text.isEmpty && text.all (isDigit 8) then numberOf 8 text ≤ 4095
  else !text.isEmpty && (text.splitOn ',').all isClause

def makeDirectory (tells : Bool) (target : Bytes) : Action (Option SystemError) := do
  let state ← get
  match state.system.disk.makeDirectory state.process.working (shellPath target) with
  | .error error => return some error
  | .ok disk => do
    set { state with system.disk := disk }
    if tells then
      let text := state.process.name ++ ofString ": created directory " ++ inQuotes target
      let _ ← Action.write 1 (text ++ ['\n'])
    return none

def parentsOf (target : Bytes) : List Bytes :=
  let rec parts (before : Bytes) : Bytes → List Bytes
    | [] => []
    | c :: rest =>
      let here := if c == '/' && before.head?.any (· != '/') then [before.reverse] else []
      here ++ parts (c :: before) rest
  parts [] (target.reverse.dropWhile (· == '/')).reverse

def isDirectory (target : Bytes) : Action Bool := do
  let state ← get
  return state.system.disk.isDirectory state.process.working (shellPath target)

/-- Makes the directories that lead to a target, and says which of them cannot be made. -/
def makeParents (tells : Bool) : List Bytes → Action (Option (Bytes × SystemError))
  | [] => return none
  | parent :: rest => do
    if ← isDirectory parent then makeParents tells rest
    else
      match ← makeDirectory tells parent with
      | none => makeParents tells rest
      | some .alreadyExists => return some (parent, .notADirectory)
      | some error => return some (parent, error)

def makeOne (withParents tells : Bool) (target : Bytes) : Action Bool := do
  let refused := fun (name : Bytes) (error : SystemError) => do
    Report.complainAbout (ofString "cannot create directory " ++ inQuotes name) error
    return false
  let obstacle ← if withParents then makeParents tells (parentsOf target) else pure none
  match obstacle with
  | some (name, error) => refused name error
  | none =>
    if withParents && (← isDirectory target) then return true
    match ← makeDirectory tells target with
    | none => return true
    | some error => refused target error

def forms : List OptionForm :=
  [⟨'m', "mode", true⟩, ⟨'p', "parents", false⟩, ⟨'v', "verbose", false⟩]

def program (arguments : List Bytes) : Action Nat := do
  match Given.read forms arguments with
  | .error text => Report.refuseUsage text
  | .ok given => do
    if given.words.isEmpty then Report.refuseUsage (ofString "missing operand")
    else
      match (given.options.reverse.lookup 'm').filter fun mode => !isMode mode with
      | some mode => do
        Report.complain (ofString "invalid mode " ++ inQuotes mode)
        return 1
      | none => do
        let made ← given.words.mapM (makeOne (given.has "p") (given.has "v"))
        return if made.all id then 0 else 1

end FragmentBuild.Shell.NewDirectories
