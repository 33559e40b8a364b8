import FragmentBuild.Shell.Lookup
import FragmentBuild.Shell.Options
import FragmentBuild.Shell.Quoting
import FragmentBuild.Shell.Token

/-! Commands that tell what names mean as commands, and that give names new meanings. -/
namespace FragmentBuild.Shell.Describe

open Action

def row (count : Nat) (name : Bytes) : Nat :=
  name.foldl (fun total c => total + c.toNat) ((name.headD '\x00').toNat * 16) % count

/-- Entries in the order in which a table of so many rows lists them. -/
def inRows (count : Nat) (entries : List (Bytes × α)) : List (Bytes × α) :=
  entries.mergeSort fun a b => decide (row count a.1 ≤ row count b.1)

def aliasText (name value : Bytes) : Bytes := name ++ '=' :: inSingleQuotes value

/-- Tells what a name means, in a sentence or as it would be written, and gives a status. -/
def describe (isSentence : Bool) (searchPath : Option Bytes) (name : Bytes) : Action Nat := do
  let process ← process
  let tell := fun (sentence : String) (word : Bytes) => do
    printLine (if isSentence then name ++ ofString sentence else word)
    return 0
  if Token.keywords.contains (toText name) then tell " is a shell keyword" name
  else
    match process.aliases.lookup name with
    | some value => do
      printLine (if isSentence then name ++ ofString " is an alias for " ++ value
        else ofString "alias " ++ aliasText name value)
      return 0
    | none => do
      let known := if searchPath.isNone then process.found.lookup name else none
      let tracked := if known.isSome then " a tracked alias for" else ""
      match ← meaning true searchPath name with
      | .function _ => tell " is a shell function" name
      | .builtin builtin =>
        tell (if builtin.rank = .special then " is a special shell builtin"
          else " is a shell builtin") name
      | .program file => do
        let state ← get
        if state.system.disk.isPresent process.working (shellPath file) ||
            (Launch.isRunnable state.system.disk process.working file) then
          tell (" is" ++ tracked ++ " " ++ toText file) file
        else missing
      | .unknown _ => missing
where
  missing : Action Nat := do
    if isSentence then printLine (name ++ ofString ": not found")
    return 127

def describeAll (arguments : List Bytes) : Action Nat := do
  let statuses ← arguments.mapM (describe true none)
  return statuses.foldl Nat.lor 0

/-- Looks for the files of commands, or shows those that have been found. -/
def remember (arguments : List Bytes) : Action Nat := do
  let chosen ← options "r" arguments
  if chosen.has 'r' then
    change ({ · with found := [] })
    return 0
  if chosen.words.isEmpty then
    (inRows 31 (← process).found).forM fun entry => printLine entry.2
    return 0
  let statuses ← chosen.words.mapM fun name => do
    match ← meaning true none name with
    | .unknown error => do
      complain (name ++ [':', ' '] ++ refusalOf error)
      return 1
    | _ => return 0
  return statuses.foldl Nat.lor 0

def setAlias (word : Bytes) : Action Nat := do
  let (name, rest) := word.span (· != '=')
  if rest.isEmpty || name.isEmpty then
    match (← process).aliases.lookup word with
    | some value => do
      printLine (aliasText word value)
      return 0
    | none => do
      writeError (ofString "alias: " ++ word ++ ofString " not found\n")
      return 1
  else
    change fun process => { process with aliases := setEntry name (rest.drop 1) process.aliases }
    return 0

def aliases (arguments : List Bytes) : Action Nat := do
  if arguments.isEmpty then
    (inRows 39 (← process).aliases).forM fun (name, value) => printLine (aliasText name value)
    return 0
  return (← arguments.mapM setAlias).foldl Nat.lor 0

def dropAliases (arguments : List Bytes) : Action Nat := do
  let chosen ← options "a" arguments
  if chosen.has 'a' then
    change ({ · with aliases := [] })
    return 0
  let statuses ← chosen.words.mapM fun name => do
    if ((← process).aliases.lookup name).isSome then
      change fun process => { process with aliases := process.aliases.filter (·.1 != name) }
      return 0
    else
      writeError (ofString "unalias: " ++ name ++ ofString " not found\n")
      return 1
  return statuses.foldl Nat.lor 0

end FragmentBuild.Shell.Describe
