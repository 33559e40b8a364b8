import FragmentBuild.Disk
import FragmentBuild.Shell.Pattern

/-! Fields: what an expanded word is split into, and the names of files that a field stands
for. -/
namespace FragmentBuild.Shell

/-- What an expanded word is made of: characters, and the bounds of the stretches in which it is
split, which may be only where values end. -/
inductive Atom where
  | glyph (glyph : Glyph)
  | splitFrom (onlyBetweenValues : Bool)
  | splitTo

namespace Atom

def ofBytes (isQuoted : Bool) (text : Bytes) : List Atom :=
  text.map fun c => .glyph (.char c isQuoted)

def glyph? : Atom → Option Glyph
  | .glyph shown => some shown
  | _ => none

def glyphs (atoms : List Atom) : List Glyph := atoms.filterMap glyph?

def text (atoms : List Atom) : Bytes := Glyph.text (glyphs atoms)

def stretch (onlyBetweenValues : Bool) (atoms : List Atom) : List Atom :=
  .splitFrom onlyBetweenValues :: atoms ++ [.splitTo]

end Atom

/-- How far a word has been split: the fields so far, last first, and the characters of the one
at hand, last first. -/
structure Split where
  done : List (List Glyph) := []
  field : List Glyph := []
  isInside : Bool := false
  onlyBetweenValues : Bool := false
  /-- Whether the stretch before was split only where values end. -/
  wasBetweenValues : Bool := false
  /-- Whether blanks have just ended a field. -/
  afterBlank : Bool := false
  /-- How many fields may follow the one at hand, if there is a limit. -/
  left : Option Nat := none
  /-- The part of the last field that is kept, unless more than separators follows it. -/
  kept : Option (List Glyph) := none

namespace Split

def isBlank (c : Char) : Bool := [' ', '\t', '\n', '\x00'].contains c

def push (split : Split) (glyph : Glyph) : Split :=
  { split with field := glyph :: split.field }

def addLast (split : Split) (glyph : Glyph) (isSeparator : Bool) (c : Char) : Split :=
  if isSeparator && isBlank c then { split.push glyph with kept := split.kept.or split.field }
  else
    { split.push glyph with
      kept := if isSeparator && split.afterBlank then split.kept else none
      afterBlank := false }

def addSeparator (split : Split) (glyph : Glyph) (c : Char) : Split :=
  let blank := isBlank c
  let afterBlank := blank && !(split.wasBetweenValues || split.onlyBetweenValues)
  if split.field.isEmpty && afterBlank then split
  else
    match split.left with
    | some 1 => { split.push glyph with left := some 0, kept := some split.field, afterBlank }
    | left =>
      { split with
        left := left.map (· - 1)
        done := split.field.reverse :: split.done
        field := []
        afterBlank }

def addChar (separators : Bytes) (split : Split) (glyph : Glyph) (c : Char) : Split :=
  let isSeparator :=
    c == '\x00' || !split.onlyBetweenValues && separators.contains c
  if split.left = some 0 then split.addLast glyph isSeparator c
  else if split.afterBlank then
    if isSeparator then { split with field := [], afterBlank := isBlank c }
    else { split with field := [glyph], afterBlank := false }
  else if isSeparator then split.addSeparator glyph c
  else split.push glyph

def add (separators : Bytes) (split : Split) : Atom → Split
  | .splitFrom onlyBetweenValues =>
    { split with
      isInside := true
      wasBetweenValues := split.onlyBetweenValues
      onlyBetweenValues
      afterBlank := false }
  | .splitTo => { split with isInside := false }
  | .glyph glyph =>
    match glyph with
    | .mark => split.push glyph
    | .char c _ => if split.isInside then split.addChar separators glyph c else split.push glyph

def fields (split : Split) : List (List Glyph) :=
  let last := split.kept.getD split.field
  if split.onlyBetweenValues || !last.isEmpty then (last.reverse :: split.done).reverse
  else split.done.reverse

def ofAtoms (separators : Bytes) (limit : Option Nat) (atoms : List Atom) : List (List Glyph) :=
  (atoms.foldl (add separators) { left := limit }).fields

end Split

def Pattern.parts : Pattern → List Pattern
  | [] => [[]]
  | '/' :: rest | '\\' :: '/' :: rest => [] :: parts rest
  | '\\' :: c :: rest =>
    match parts rest with
    | part :: more => ('\\' :: c :: part) :: more
    | [] => [['\\', c]]
  | c :: rest =>
    match parts rest with
    | part :: more => (c :: part) :: more
    | [] => [[c]]

/-- Whether a part of a pattern stands for more than one name. -/
def Pattern.isOpen : Pattern → Bool
  | [] => false
  | '*' :: _ | '?' :: _ => true
  | '\\' :: _ :: rest => isOpen rest
  | '[' :: '!' :: rest => closesSet (rest.length + 1) rest || isOpen rest
  | '[' :: rest => closesSet (rest.length + 1) rest || isOpen rest
  | _ :: rest => isOpen rest

def Pattern.name : Pattern → Bytes
  | '\\' :: c :: rest => c :: name rest
  | c :: rest => c :: name rest
  | [] => []

/-- Whether a part of a pattern may stand for names that begin with a dot. -/
def Pattern.meansHidden : Pattern → Bool
  | '.' :: _ | '\\' :: '.' :: _ => true
  | _ => false

def shellPath (text : Bytes) : Path := ⟨.ofBytes (toByteArray text)⟩

/-- The names in a directory, with those of itself and of the directory it is in. -/
def namesIn (disk : Disk) (working : Option Location) (directory : Bytes) : List Bytes :=
  match disk.reach working (shellPath (if directory.isEmpty then ['.'] else directory)) with
  | .ok (location, .directory) =>
    [['.'], ['.', '.']] ++ disk.entries.filterMap fun entry =>
      if entry.1.dropLast = location ∧ entry.1 ≠ [] then
        entry.1.getLast?.map fun name => ofByteArray name.bytes
      else none
  | _ => []

def pathsFrom (disk : Disk) (working : Option Location) :
    Nat → Bytes → List Pattern → List Bytes
  | 0, _, _ => []
  | fuel + 1, directory, parts =>
    let (fixed, rest) := parts.span fun part => !part.isOpen
    match rest with
    | [] =>
      let path := directory ++ ['/'].intercalate (fixed.map Pattern.name)
      if !directory.isEmpty && disk.isPresent working (shellPath path) then [path] else []
    | part :: more =>
      let directory := directory ++ fixed.flatMap fun part => part.name ++ ['/']
      let found := (namesIn disk working directory).filter fun name =>
        part.fits name && (name.head? != some '.' || part.meansHidden)
      found.flatMap fun name =>
        if more.isEmpty then [directory ++ name]
        else pathsFrom disk working fuel (directory ++ name ++ ['/']) more

def filesFor (disk : Disk) (working : Option Location) (field : List Glyph) : List Bytes :=
  let parts := (Pattern.ofGlyphs false field).parts
  if parts.any Pattern.isOpen then
    (pathsFrom disk working (parts.length + 1) [] parts).mergeSort inOrder
  else []

end FragmentBuild.Shell
