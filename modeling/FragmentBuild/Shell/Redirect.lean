import FragmentBuild.Shell.Expansion
import FragmentBuild.World

/-! Redirections: descriptors that lead somewhere else while a command is carried out. -/
namespace FragmentBuild.Shell

/-- A redirection whose words have been expanded. -/
inductive Opening where
  | file (descriptor : Nat) (access : Access) (name : Bytes)
  /-- To where another descriptor leads, or to nowhere. -/
  | duplicate (descriptor : Nat) (source : Option Nat)
  | document (descriptor number : Nat)

/-- Descriptors that have been changed, with where they led before, last first. -/
abbrev Changed := List (Nat × Option Nat)

def descriptorAt? (location : Location) : Option Nat :=
  match location.mapM OsText.text? with
  | some ["dev", "stdin"] => some 0
  | some ["dev", "stdout"] => some 1
  | some ["dev", "stderr"] => some 2
  | some ["dev", "fd", number] | some ["proc", "self", "fd", number] => number.toNat?
  | _ => none

def refusal (missing : String) (error : SystemError) : String :=
  match error with
  | .notFound | .notADirectory => missing
  | error => error.description

namespace Action

def setDescriptor (descriptor : Nat) (file : Option Nat) : Action Unit :=
  change fun process =>
    { process with
      descriptors :=
        match file with
        | some file => setEntry descriptor file process.descriptors
        | none => process.descriptors.filter (·.1 != descriptor) }

def addFile (file : OpenFile) : Action Nat := do
  let state ← get
  let (number, system) := state.system.addFile file
  set { state with system }
  return number

/-- The pipe, or the path of the file, that a path stands for which may mean a descriptor. -/
def goalOf (path : Path) : Action (Except SystemError (Target ⊕ Path)) := do
  let state ← get
  let plain := Path.components path |>.filterMap fun component =>
    match component with
    | .name text => some text
    | _ => none
  match if path.isAbsolute then descriptorAt? plain else none with
  | none => return .ok (.inr path)
  | some descriptor =>
    match state.process.descriptors.lookup descriptor with
    | none => return .error .notFound
    | some number =>
      match state.system.files[number]? with
      | some { target := .file location, .. } | some { target := .directory location, .. } =>
        return .ok (.inr (Machine.locationPath location))
      | some file => return .ok (.inl file.target)
      | none => return .error .notFound

def tryOpen (access : Access) (path : Path) : Action (Except SystemError Nat) := do
  let protects := access == .write && (← hasOption "noclobber")
  match ← goalOf path with
  | .error error => return .error error
  | .ok (.inl target) =>
    return .ok (← addFile
      { target, isReadable := access == .read || access == .update, isWritable := access != .read })
  | .ok (.inr path) => do
    let state ← get
    let { system, process, .. } := state
    if protects && system.disk.isFile process.working path then return .error .alreadyExists
    if access = .read then
      match system.openToRead process.working path with
      | .ok file => return .ok (← addFile file)
      | .error error => return .error error
    else
      let empties := access == .write || access == .overwrite
      match system.openToWrite process.working path (access == .update) (access == .append)
        empties with
      | .ok (file, system) => do
        set { state with system }
        return .ok (← addFile file)
      | .error error => return .error error

/-- The open file of a redirection: nothing if the descriptor is closed. -/
def openFile (access : Access) (name : Bytes) : Action Nat := do
  match ← tryOpen access (shellPath name) with
  | .ok file => return file
  | .error error =>
    let (verb, missing) :=
      if access = .read then ("open", "No such file") else ("create", "Directory nonexistent")
    refuse (ofString ("cannot " ++ verb ++ " ") ++ name ++ ofString (": " ++ refusal missing error))

def openText (text : Bytes) : Action Nat := do
  let state ← get
  let (_, source, sink, system) := state.system.addPipe none
  match system.write sink text with
  | .ok system => set { state with system }
  | .error _ => set { state with system }
  return source

variable (printed : Command → Action Bytes)

/-- The text of a document, with what has to be replaced in it replaced. -/
def documentText (number : Nat) : Action Bytes := do
  match (← process).documents.lookup number with
  | none => return []
  | some document =>
    if document.expands then text printed { isQuoted := true } document.text
    else
      return document.text.filterMap fun part =>
        match part with
        | .bare c | .quoted c => some c
        | _ => none

def openings (redirections : List Redirection) : Action (List Opening) :=
  redirections.mapM fun redirection => do
    match redirection with
    | .file descriptor access name =>
      return .file descriptor access (← text printed { hasTilde := true } name)
    | .duplicate descriptor source =>
      match ← text printed { hasTilde := true } source with
      | ['-'] => return .duplicate descriptor none
      | [c] =>
        if c.isDigit then return .duplicate descriptor (some (c.toNat - '0'.toNat))
        else malformed
      | _ => malformed
    | .document descriptor number => return .document descriptor number
where
  malformed {α : Type} : Action α := do
    change fun process => { process with line := process.reached }
    refuseText "Syntax error: Bad fd number"

def goal? (opening : Opening) : Action (Option (Nat × Option Nat)) := do
  match opening with
  | .file descriptor access name => return some (descriptor, some (← openFile access name))
  | .document descriptor number => do
    let text ← documentText printed number
    return some (descriptor, some (← openText text))
  | .duplicate descriptor none => return some (descriptor, none)
  | .duplicate descriptor (some source) =>
    if source = descriptor then return none
    else
      match (← process).descriptors.lookup source with
      | some file => return some (descriptor, some file)
      | none => refuse (numeral source ++ ofString ": Bad file descriptor")

def redirect : List Opening → Action Unit
  | [] => return
  | opening :: rest => do
    if let some (descriptor, file) ← goal? printed opening then setDescriptor descriptor file
    redirect rest

def Opening.descriptor : Opening → Nat
  | .file descriptor _ _ | .duplicate descriptor _ | .document descriptor _ => descriptor

def led (openings : List Opening) : Action Changed := do
  let process ← process
  return openings.map fun opening =>
    (Opening.descriptor opening, process.descriptors.lookup (Opening.descriptor opening))

def leadBack (changed : Changed) : Action Unit :=
  changed.forM fun (descriptor, file) => setDescriptor descriptor file

def tryRedirect (openings : List Opening) : Action Bool := do
  match ← attempt (redirect printed openings) with
  | .ok () => return true
  | .error .error => return false
  | .error unwind => throw unwind

end Action

end FragmentBuild.Shell
