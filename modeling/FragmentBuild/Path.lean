import FragmentBuild.Text.OsText

/-! Paths as they are written, in bytes. Two paths are the same if their components are: repeated
and trailing slashes do not count, nor does a single dot, except in front of a relative path. -/
namespace FragmentBuild

def slashByte : UInt8 := '/'.toUInt8

def dotByte : UInt8 := '.'.toUInt8

@[simp]
theorem toList_slash : (OsText.ofText "/").toList = [slashByte] := by decide

@[simp]
theorem toList_dots : (OsText.ofText "..").toList = [dotByte, dotByte] := by decide

theorem slashByte_mem_ofText {text : String} :
    slashByte ∈ (OsText.ofText text).toList ↔ '/' ∈ text.toList :=
  OsText.mem_toList_ofText (by decide) text

theorem dotByte_mem_ofText {text : String} :
    dotByte ∈ (OsText.ofText text).toList ↔ '.' ∈ text.toList :=
  OsText.mem_toList_ofText (by decide) text

def pieces : List UInt8 → List (List UInt8)
  | [] => [[]]
  | c :: rest =>
    if c = slashByte then [] :: pieces rest
    else
      match pieces rest with
      | [] => [[c]]
      | piece :: more => (c :: piece) :: more

structure Path where
  text : OsText
  deriving DecidableEq, Repr, Inhabited

namespace Path

def ofText (text : String) : Path := ⟨text⟩

inductive Component where
  | root
  | current
  | parent
  | name (text : OsText)
  deriving DecidableEq, Repr

def Component.text : Component → OsText
  | .root => "/"
  | .current => "."
  | .parent => ".."
  | .name text => text

/-- A piece as a component of a path; nothing between two slashes and a single dot are
none. -/
def Component.ofPiece? (piece : List UInt8) : Option Component :=
  if piece = [] ∨ piece = [dotByte] then none
  else if piece = [dotByte, dotByte] then some .parent
  else some (.name ⟨piece⟩)

def isAbsolute (path : Path) : Bool := path.text.toList.head? == some slashByte

def components (path : Path) : List Component :=
  let parts := pieces path.text.toList
  let named := parts.filterMap Component.ofPiece?
  if path.isAbsolute then .root :: named
  else if parts.head? = some [dotByte] then .current :: named
  else named

def same (first second : Path) : Bool := first.components == second.components

/-- `path` seen from `base`; an absolute path stands for itself. -/
def join (base path : Path) : Path :=
  if path.isAbsolute then path
  else if base.text.isEmpty ∨ base.text.toList.getLast? = some slashByte then
    ⟨base.text ++ path.text⟩
  else ⟨base.text ++ "/" ++ path.text⟩

def child (base : Path) (name : OsText) : Path := base.join ⟨name⟩

def ofComponents (components : List Component) : Path :=
  components.foldl (fun path component => path.join ⟨component.text⟩) ⟨""⟩

/-- The path itself and the paths of the directories that lead to it, nearest first. The
empty path is none of them. -/
def ancestors (path : Path) : List Path :=
  let components := path.components
  if components.isEmpty then []
  else
    path :: ((List.range (components.length - 1)).map fun count =>
      ofComponents (components.take (count + 1))).reverse

/-- How a path is shown. Bytes that are no text are lost. -/
def display (path : Path) : String := path.text.shown

abbrev IsText (path : Path) : Prop := path.text.IsText

theorem ofText_display {path : Path} (isText : path.IsText) : ofText path.display = path := by
  rw [ofText, display, OsText.ofText_shown isText]

theorem IsText.child {base : Path} (isText : base.IsText) (text : name.IsText) :
    (base.child name).IsText := by
  have slash := OsText.isText_ofText "/"
  unfold Path.child join
  split
  · exact text
  · split
    · exact isText.append text
    · exact (isText.append slash).append text

def quoted (path : Path) : String := path.text.quoted

instance : ToString Path := ⟨display⟩

end Path

end FragmentBuild
