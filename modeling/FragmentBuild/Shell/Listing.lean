import FragmentBuild.Shell.Format
import FragmentBuild.Shell.Given
import FragmentBuild.Shell.Redirect
import FragmentBuild.Shell.Report

/-! A program that prints files one after the other, as they are or with marks and numbers. -/
namespace FragmentBuild.Shell.Listing

/-- What can be read at a path or, for a dash, from the input. -/
def contentsOf (target : Bytes) : Action (Except SystemError Bytes) := do
  let opened ←
    if target = ['-'] then
      match (← Action.process).descriptors.lookup 0 with
      | some file => pure (.ok file)
      | none => pure (.error .badDescriptor)
    else Action.tryOpen .read (shellPath target)
  match opened with
  | .error error => return .error error
  | .ok file => do
    let state ← get
    match state.system.readAll file with
    | .error error => return .error error
    | .ok (text, system) => do
      set { state with system }
      return .ok text

def locationOf (system : System) (number : Option Nat) : Option Location :=
  match number.bind fun number => system.files[number]? with
  | some { target := .file location, .. } => some location
  | _ => none

/-- Whether there is something in a file that it would be printed to. -/
def isOwnOutput (target : Bytes) : Action Bool := do
  let { system, process, .. } ← get
  let output := locationOf system (process.descriptors.lookup 1)
  if output.isNone then return false
  let input :=
    if target = ['-'] then locationOf system (process.descriptors.lookup 0)
    else (system.disk.aim process.working (shellPath target)).toOption
  if input ≠ output then return false
  let offset :=
    if target = ['-'] then
      (((process.descriptors.lookup 0).bind fun file => system.files[file]?).map (·.offset)).getD 0
    else 0
  match output.bind system.disk.get? with
  | some (.file contents _) => return offset < contents.size
  | _ => return false

/-- How far the printing has come. -/
structure Progress where
  given : Given
  number : Nat := 0
  atLineStart : Bool := true
  /-- How many empty lines there have been one after the other. -/
  emptyLines : Nat := 0

namespace Progress

def hasMarks (progress : Progress) : Bool := progress.given.has "vAet"

def visible (progress : Progress) (c : Char) : Bytes :=
  if c = '\t' then if progress.given.has "TtA" then "^I".toList else [c]
  else if !progress.hasMarks then [c]
  else
    let low := Char.ofNat (c.toNat % 128)
    let shown :=
      if low < ' ' then ['^', Char.ofNat (low.toNat + 64)]
      else if low = '\x7f' then "^?".toList
      else [low]
    if c.toNat < 128 then shown else "M-".toList ++ shown

def numbered (progress : Progress) (isEmpty : Bool) : Bool :=
  if progress.given.has "b" then !isEmpty else progress.given.has "n"

/-- Shows characters one after the other, after those that are shown already, last first. -/
def shownFrom (progress : Progress) (done : Bytes) : Bytes → Bytes × Progress
  | [] => (done.reverse, progress)
  | c :: rest =>
    let isEmpty := progress.atLineStart && c == '\n'
    let emptyLines :=
      if isEmpty then progress.emptyLines + 1
      else if progress.atLineStart then 0
      else progress.emptyLines
    if isEmpty && progress.given.has "s" && 1 < emptyLines then
      shownFrom { progress with emptyLines } done rest
    else
      let counts := progress.atLineStart && progress.numbered isEmpty
      let number := if counts then progress.number + 1 else progress.number
      let front :=
        if counts then
          let digits := numeral number
          List.replicate (6 - digits.length) ' ' ++ digits ++ ['\t']
        else []
      let marksEnds := progress.given.has "EAe"
      let here :=
        if c = '\n' then if marksEnds then ['$', '\n'] else ['\n']
        else if c = '\r' && marksEnds && rest.head? == some '\n' then "^M".toList
        else progress.visible c
      shownFrom { progress with number, emptyLines, atLineStart := c == '\n' }
        ((front ++ here).reverse ++ done) rest

end Progress

structure Outcome where
  progress : Progress
  succeeded : Bool := true
  /-- Why nothing more can be printed. -/
  fault : Option SystemError := none

/-- Prints a file after others, unless nothing more can be printed. -/
def add (isPlainCopy : Bool) (outcome : Outcome) (target : Bytes) : Action Outcome := do
  if outcome.fault.isSome then return outcome
  if ← isOwnOutput target then
    Report.complain (asWord target ++ ofString ": input file is output file")
    return { outcome with succeeded := false }
  match ← contentsOf target with
  | .error error => do
    Report.complainAbout (asWord target) error
    return { outcome with succeeded := false }
  | .ok text => do
    let (shown, progress) :=
      if isPlainCopy then (text, outcome.progress) else outcome.progress.shownFrom [] text
    match ← Action.write 1 shown with
    | none => return { outcome with progress }
    | some error => return { outcome with succeeded := false, fault := some error }

def forms : List OptionForm :=
  [⟨'b', "number-nonblank", false⟩, ⟨'n', "number", false⟩, ⟨'s', "squeeze-blank", false⟩,
    ⟨'v', "show-nonprinting", false⟩, ⟨'E', "show-ends", false⟩, ⟨'T', "show-tabs", false⟩,
    ⟨'A', "show-all", false⟩, ⟨'e', "", false⟩, ⟨'t', "", false⟩, ⟨'u', "", false⟩]

def program (arguments : List Bytes) : Action Nat := do
  match Given.read forms arguments with
  | .error text => Report.refuseUsage text
  | .ok given => do
    let { descriptors, .. } ← Action.process
    if (descriptors.lookup 1).isNone then
      Report.complainAbout (ofString "standard output") .badDescriptor
      return 1
    let targets := if given.words.isEmpty then [['-']] else given.words
    let outcome ← targets.foldlM (add (!given.has "bnsvETAet")) { progress := { given } }
    if let some error := outcome.fault then Report.complainAbout (ofString "write error") error
    if targets.contains ['-'] && (descriptors.lookup 0).isNone then
      Report.complainAbout (ofString "closing standard input") .badDescriptor
    return if outcome.succeeded then 0 else 1

end FragmentBuild.Shell.Listing
