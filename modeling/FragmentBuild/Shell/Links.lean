import FragmentBuild.Shell.NewDirectories

/-! A program that makes symbolic links. There are no other links, so that it cannot make one
without being asked for a symbolic one. -/
namespace FragmentBuild.Shell.Links

def lastName (target : Bytes) : Bytes :=
  ((target.reverse.dropWhile (· == '/')).takeWhile (· != '/')).reverse

/-- What stands under a name goes if links are to replace it, unless it is a directory. -/
def clear (name : Bytes) : Action Unit :=
  modify fun state =>
    match state.system.disk.removeFile state.process.working (shellPath name) with
    | .ok disk => { state with system.disk := disk }
    | .error _ => state

def makeLink (given : Given) (name target : Bytes) : Action Bool := do
  if given.has "f" then clear name
  let state ← get
  let made :=
    if given.has "s" then
      state.system.disk.makeLink state.process.working (shellPath target) (shellPath name)
    else .error (.other "Operation not permitted")
  match made with
  | .ok disk => do
    set { state with system.disk := disk }
    return true
  | .error error => do
    let text :=
      if given.has "s" then ofString "failed to create symbolic link " ++ inQuotes name
      else
        ofString "failed to create hard link " ++ inQuotes name ++ ofString " => " ++ inQuotes target
    Report.complainAbout text error
    return false

/-- The names of links in a directory, each with what it is to lead to. -/
def inside (directory : Bytes) (targets : List Bytes) : List (Bytes × Bytes) :=
  targets.map fun target =>
    (if directory.getLast? = some '/' then directory ++ lastName target
      else directory ++ '/' :: lastName target, target)

def isDirectory (given : Given) (name : Bytes) : Action Bool := do
  let state ← get
  let found := state.system.disk.find state.process.working (shellPath name)
  let isLink := found.toOption.any (·.2.isLink)
  return !(given.has "n" && isLink) && (← NewDirectories.isDirectory name)

def forms : List OptionForm :=
  [⟨'s', "symbolic", false⟩, ⟨'f', "force", false⟩, ⟨'n', "no-dereference", false⟩]

def program (arguments : List Bytes) : Action Nat := do
  match Given.read forms arguments with
  | .error text => Report.refuseUsage text
  | .ok given => do
    let makeAll := fun (links : List (Bytes × Bytes)) => do
      let made ← links.mapM fun link => makeLink given link.1 link.2
      return if made.all id then 0 else 1
    match given.words with
    | [] => Report.refuseUsage (ofString "missing file operand")
    | [target] => makeAll (inside ['.'] [target])
    | words => do
      let last := words.getLastD []
      if ← isDirectory given last then makeAll (inside last words.dropLast)
      else
        match words with
        | [target, name] => makeAll [(name, target)]
        | _ => do
          Report.complain (ofString "target " ++ inQuotes last ++ ofString ": Not a directory")
          return 1

end FragmentBuild.Shell.Links
