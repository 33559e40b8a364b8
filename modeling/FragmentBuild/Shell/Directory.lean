import FragmentBuild.Shell.Options
import FragmentBuild.Shell.Field
import FragmentBuild.World

/-! Commands about the working directory, and about what new files may be used for. -/
namespace FragmentBuild.Shell.Directory

open Action

/-- The pieces of a path, with those that lead back carried out, last first. -/
def followed (before : List Bytes) : List Bytes → List Bytes
  | [] => before
  | piece :: rest =>
    if piece = [] ∨ piece = ['.'] then followed before rest
    else if piece = ['.', '.'] then followed (before.drop 1) rest
    else followed (piece :: before) rest

/-- Where a path leads from a directory, as far as names tell. -/
def target (directory path : Bytes) : Bytes :=
  let isAbsolute := path.head? == some '/'
  let whole := if isAbsolute then path else directory ++ '/' :: path
  let front := (if isAbsolute then path else directory).takeWhile (· == '/')
  let root := if front.length = 2 then ['/', '/'] else ['/']
  root ++ ['/'].intercalate (followed [] (whole.splitOn '/')).reverse

def locationText (location : Location) : Bytes :=
  ofByteArray (Machine.locationPath location).text.bytes

def physical (process : Process) : Bytes :=
  (process.working.map locationText).getD []

def settle (directory : Bytes) (keepsOld : Bool) : Action Unit := do
  let before := (← process).directory
  if keepsOld then setVariable "OLDPWD".toList before true
  change ({ · with directory })
  setVariable "PWD".toList directory true

/-- Goes to a directory, and says whether that could be done. -/
def go (isPhysical : Bool) (path : Bytes) : Action Bool := do
  let state ← get
  let process := state.process
  let logical :=
    if isPhysical || (process.directory.isEmpty && path.head? != some '/') then none
    else some (target process.directory path)
  match state.system.disk.reach process.working (shellPath (logical.getD path)) with
  | .ok (location, .directory) => do
    change ({ · with working := some location })
    settle (logical.getD (locationText location)) true
    return true
  | _ => return false

/-- Whether a path is looked for without a search: it begins with a slash or with dots. -/
def isFixed (path : Bytes) : Bool :=
  match path.splitOn '/' with
  | first :: rest => (first.isEmpty && !rest.isEmpty) || first == ['.'] || first == ['.', '.']
  | [] => false

/-- The directories that a path may stand for, each with whether it is told. -/
def places (searchPath : Option Bytes) (path : Bytes) : List (Bytes × Bool) :=
  match searchPath with
  | none => []
  | some text => (text.splitOn ':').map fun directory =>
    if directory.isEmpty then (path, false) else (directory ++ '/' :: path, true)

def goHome (arguments : List Bytes) : Action Nat := do
  let chosen ← options "LP" arguments
  let isPhysical := (chosen.options.getLast?.map (·.1)) == some 'P'
  let goesBack := chosen.words.head? == some ['-']
  let wanted ←
    match chosen.words with
    | [] => value? "HOME".toList
    | word :: _ => if goesBack then value? "OLDPWD".toList else pure (some word)
  let wanted := wanted.getD []
  let state ← get
  let path := if wanted.isEmpty then ['.'] else wanted
  let searchPath ← value? "CDPATH".toList
  let found :=
    if isFixed wanted then none
    else (places searchPath path).find? fun place =>
      state.system.disk.isDirectory state.process.working (shellPath place.1)
  let (path, isTold) := found.getD (if isFixed wanted then (wanted, false) else (path, false))
  if !(← go isPhysical path) then refuse (ofString "can't cd to " ++ wanted)
  if isTold || goesBack then printLine (← process).directory
  return 0

def tell (arguments : List Bytes) : Action Nat := do
  let chosen ← options "LP" arguments
  let process ← process
  let isPhysical := (chosen.options.getLast?.map (·.1)) == some 'P'
  printLine (if isPhysical then physical process else process.directory)
  return 0

def lettersOf (mask : Nat) : Bytes :=
  let shown := [('u', 6), ('g', 3), ('o', 0)].map fun (who, shift) =>
    let rights := [('r', 4), ('w', 2), ('x', 1)].filterMap fun (letter, bit) =>
      if (mask >>> shift) &&& bit = 0 then some letter else none
    who :: '=' :: rights
  [','].intercalate shown

/-- The bits that letters of rights stand for, some of which are rights that others have. -/
def rightsOf (before : Nat) (letters : Bytes) : Nat :=
  letters.foldl (fun bits letter =>
    bits ||| match letter with
      | 'r' => 4
      | 'w' => 2
      | 'x' => 1
      | 'u' => (before >>> 6) &&& 7
      | 'g' => (before >>> 3) &&& 7
      | 'o' => before &&& 7
      | 'X' => if before &&& 0o111 = 0 then 0 else 1
      | _ => 0) 0

def changed? (before : Nat) : Nat → Nat → Nat → Bytes → Option Nat
  | 0, _, rights, _ => some rights
  | _, _, rights, [] => some rights
  | fuel + 1, places, rights, text =>
    let (who, rest) := text.span ("augo".toList.contains ·)
    let places := who.foldl (fun places letter =>
      places ||| match letter with
        | 'a' => 0o111
        | 'u' => 0o100
        | 'g' => 0o010
        | _ => 0o001) places
    let places := if places = 0 then 0o111 else places
    match rest with
    | [] => none
    | sign :: rest =>
      if !"=+-".toList.contains sign then none
      else
        let (letters, rest) := rest.span ("rwxugoXs".toList.contains ·)
        let bits := (rightsOf before letters &&& 7) * places
        let without := fun (bits : Nat) => rights &&& (0o777 ^^^ (bits &&& 0o777))
        let rights :=
          if sign = '-' then without bits
          else if sign = '=' then bits ||| without (places * 7)
          else rights ||| bits
        match rest with
        | ',' :: rest => changed? before fuel 0 rights rest
        | [] => some rights
        | c :: rest =>
          if "=+-".toList.contains c then changed? before fuel places rights (c :: rest) else none

def mask (arguments : List Bytes) : Action Nat := do
  let chosen ← options "S" arguments
  let mask := (← process).mask
  match chosen.words with
  | [] => do
    printLine (if chosen.has 'S' then lettersOf mask else paddedDigits 8 4 mask)
    return 0
  | word :: _ => do
    let setMask := fun (mask : Nat) => change ({ · with mask := mask &&& 0o777 })
    if (word.headD 'a').isDigit then
      if !word.all (isDigit 8) then refuseNumber word
      setMask (numberOf 8 word)
    else
      let rights := 0o777 ^^^ mask
      match changed? rights (word.length + 1) 0 rights word with
      | none => refuse (ofString "Illegal mode: " ++ word)
      | some rights => setMask (0o777 ^^^ (rights &&& 0o777))
    return 0

end FragmentBuild.Shell.Directory
