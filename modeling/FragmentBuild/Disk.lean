import FragmentBuild.Entries
import FragmentBuild.SystemError
import FragmentBuild.Text.Utf8

/-! A file system as a value: which entry stands at which location. Locations are lists of
names from the root down. Paths are followed name by name, and every name on the way has to
lie in a directory. What the last name stands for may be a symbolic link, which some requests
follow and others take for itself; links to directories on the way are left out. -/
namespace FragmentBuild

abbrev Location := List OsText

inductive DiskEntry where
  | directory
  | file (contents : ByteArray) (executable : Bool)
  /-- Reads as empty and keeps nothing that is written to it. -/
  | sink
  | link (target : Path)
  deriving DecidableEq

def DiskEntry.isLink : DiskEntry → Bool
  | .link _ => true
  | _ => false

structure Disk where
  entries : List (Location × DiskEntry)
  /-- Directories that are file systems of their own. -/
  mounts : List Location := []

namespace Disk

/-- What stands at a location. The root is always a directory. -/
def get? (disk : Disk) (location : Location) : Option DiskEntry :=
  if location = [] then some .directory else disk.entries.lookup location

def put (disk : Disk) (location : Location) (entry : DiskEntry) : Disk :=
  { disk with entries := setEntry location entry disk.entries }

def erase (disk : Disk) (location : Location) : Disk :=
  { disk with entries := disk.entries.filter fun entry => entry.1 != location }

/-- Removes everything below a location, which itself stays. -/
def eraseBelow (disk : Disk) (location : Location) : Disk :=
  { disk with
    entries := disk.entries.filter fun entry =>
      !(location.isPrefixOf entry.1 && location != entry.1) }

def mountOf (disk : Disk) (location : Location) : Location :=
  (disk.mounts.filter (·.isPrefixOf location)).foldl
    (fun best mount => if best.length < mount.length then mount else best) []

/-- Follows the pieces of a path. The last name need not exist. -/
def walk (disk : Disk) : Location → List (List UInt8) → Except SystemError Location
  | here, [] => .ok here
  | here, piece :: rest =>
    match disk.get? here with
    | none => .error .notFound
    | some .directory =>
      if piece = [] ∨ piece = [dotByte] then disk.walk here rest
      else if piece = [dotByte, dotByte] then disk.walk here.dropLast rest
      else if 255 < piece.length then .error .nameTooLong
      else disk.walk (here ++ [⟨piece⟩]) rest
    | some _ => .error .notADirectory

/-- Where a path starts, or why it cannot be followed at all. The working directory may have
been removed. -/
def origin (working : Option Location) (path : Path) : Except SystemError Location :=
  if path.text.toList.contains 0 then .error .nulInPath
  else if path.text.isEmpty then .error .notFound
  else if 4095 < path.text.toList.length then .error .nameTooLong
  else if path.isAbsolute then .ok []
  else
    match working with
    | none => .error .notFound
    | some here => .ok here

/-- The location of a path. A slash at its end asks for a directory. -/
def locate (disk : Disk) (working : Option Location) (path : Path) :
    Except SystemError Location := do
  disk.walk (← origin working path) (pieces path.text.toList)

/-- The location of a path whose last name may be new, and whether a slash follows that
name. -/
def locateNew (disk : Disk) (working : Option Location) (path : Path) :
    Except SystemError (Location × Bool) := do
  let parts := (pieces path.text.toList).reverse
  let location ← disk.walk (← origin working path) (parts.dropWhile List.isEmpty).reverse
  return (location, parts.head? == some [])

def linkLimit : Nat := 40

/-- Where a location leads by the links that stand there, one after the other. -/
def follow (disk : Disk) : Nat → Location → Except SystemError Location
  | 0, here =>
    match disk.get? here with
    | some (.link _) => .error .tooManyLinks
    | _ => .ok here
  | count + 1, here =>
    match disk.get? here with
    | some (.link target) => (disk.locate (some here.dropLast) target).bind (disk.follow count)
    | _ => .ok here

/-- What stands where a path leads. A link at its end is not followed. -/
def find (disk : Disk) (working : Option Location) (path : Path) :
    Except SystemError (Location × DiskEntry) := do
  let location ← disk.locate working path
  match disk.get? location with
  | some entry => return (location, entry)
  | none => throw .notFound

/-- Where a path and the links at its end lead. -/
def aim (disk : Disk) (working : Option Location) (path : Path) :
    Except SystemError Location := do
  disk.follow linkLimit (← disk.locate working path)

/-- What stands where a path and the links at its end lead. -/
def reach (disk : Disk) (working : Option Location) (path : Path) :
    Except SystemError (Location × DiskEntry) := do
  let location ← disk.aim working path
  match disk.get? location with
  | some entry => return (location, entry)
  | none => throw .notFound

def isFile (disk : Disk) (working : Option Location) (path : Path) : Bool :=
  match disk.reach working path with
  | .ok (_, .file _ _) => true
  | _ => false

def isDirectory (disk : Disk) (working : Option Location) (path : Path) : Bool :=
  match disk.reach working path with
  | .ok (_, .directory) => true
  | _ => false

def isPresent (disk : Disk) (working : Option Location) (path : Path) : Bool :=
  match disk.reach working path with
  | .ok _ => true
  | .error _ => false

def read (disk : Disk) (working : Option Location) (path : Path) :
    Except SystemError ByteArray := do
  match ← disk.reach working path with
  | (_, .file contents _) => return contents
  | (_, .sink) => return .empty
  | (_, .directory) => throw .isADirectory
  | (_, .link _) => throw .tooManyLinks

def makeDirectory (disk : Disk) (working : Option Location) (path : Path) :
    Except SystemError Disk := do
  let (location, _) ← disk.locateNew working path
  match disk.get? location with
  | some _ => throw .alreadyExists
  | none => return disk.put location .directory

/-- Makes the first of the given directories, nearest first, and before it those of the
others that are missing. What has been made stays when a later step fails. -/
def makeEach (disk : Disk) (working : Option Location) :
    List Path → Except SystemError Unit × Disk
  | [] => (.ok (), disk)
  | path :: parents =>
    match disk.makeDirectory working path with
    | .ok made => (.ok (), made)
    | .error .notFound =>
      match disk.makeEach working parents with
      | (.error error, begun) => (.error error, begun)
      | (.ok (), prepared) =>
        match prepared.makeDirectory working path with
        | .ok made => (.ok (), made)
        | .error error =>
          (if prepared.isDirectory working path then .ok () else .error error, prepared)
    | .error error => (if disk.isDirectory working path then .ok () else .error error, disk)

/-- Makes a directory with all directories that lead to it, as far as they are missing. -/
def makeDirectories (disk : Disk) (working : Option Location) (path : Path) :
    Except SystemError Unit × Disk :=
  disk.makeEach working path.ancestors

def createFile (disk : Disk) (working : Option Location) (path : Path) :
    Except SystemError Disk := do
  let (location, slash) ← disk.locateNew working path
  if slash then throw .isADirectory
  match disk.get? location with
  | some _ => throw .alreadyExists
  | none => return disk.put location (.file .empty false)

/-- Puts a link where nothing stands. -/
def makeLink (disk : Disk) (working : Option Location) (target path : Path) :
    Except SystemError Disk := do
  if target.text.isEmpty then throw .notFound
  let (location, slash) ← disk.locateNew working path
  match disk.get? location with
  | some _ => throw .alreadyExists
  | none => if slash then throw .notFound else return disk.put location (.link target)

/-- Puts a file where a path and the links at its end lead. Which one it is may depend on whether
the file that stood there was executable. -/
def fill (disk : Disk) (working : Option Location) (path : Path) (file : Bool → DiskEntry) :
    Except SystemError Disk := do
  let (location, slash) ← disk.locateNew working path
  if slash then throw .isADirectory
  let goal ← disk.follow linkLimit location
  match disk.get? goal with
  | some .directory => throw .isADirectory
  | some .sink => return disk
  | some (.link _) => throw .tooManyLinks
  | some (.file _ executable) => return disk.put goal (file executable)
  | none => return disk.put goal (file false)

def write (disk : Disk) (working : Option Location) (path : Path) (contents : ByteArray) :
    Except SystemError Disk :=
  disk.fill working path (.file contents)

def removeFile (disk : Disk) (working : Option Location) (path : Path) :
    Except SystemError Disk := do
  let (location, slash) ← disk.locateNew working path
  match disk.get? location with
  | none => throw .notFound
  | some .directory => throw .isADirectory
  | some _ => if slash then throw .notADirectory else return disk.erase location

/-- Removes a directory with everything below it. A path that ends in a dot names a
directory that can be emptied but not removed under this name; a path that leads through what
was in the directory then names nothing, and there is nothing more to remove. Of a link only the
link itself is removed. -/
def removeTree (disk : Disk) (working : Option Location) (path : Path) :
    Except SystemError Unit × Disk :=
  match disk.find working path with
  | .error error => (.error error, disk)
  | .ok (location, .link _) => (.ok (), disk.erase location)
  | .ok (location, .directory) =>
    let emptied := disk.eraseBelow location
    let parts := (pieces path.text.toList).reverse.dropWhile List.isEmpty
    let last := parts.head?
    let parent := (origin working path).bind fun start => emptied.walk start (parts.drop 1).reverse
    let isLost : Bool :=
      match parent with
      | .error error => error == .notFound
      | .ok parent => (emptied.get? parent).isNone
    if isLost then (.ok (), emptied)
    else if last = some [dotByte] then (.error .invalidArgument, emptied)
    else if last = some [dotByte, dotByte] then (.error .notEmpty, emptied)
    else if location = [] ∨ disk.mounts.contains location then (.error .busy, emptied)
    else (.ok (), emptied.erase location)
  | .ok _ => (.error .notADirectory, disk)

def rename (disk : Disk) (working : Option Location) (source target : Path) :
    Except SystemError Disk := do
  let (location, entry) ← disk.find working source
  let (goal, slash) ← disk.locateNew working target
  if entry = .directory then throw .isADirectory
  if slash then throw .notADirectory
  if disk.get? goal = some .directory then throw .isADirectory
  if disk.mountOf location ≠ disk.mountOf goal then throw .crossDevice
  if location = goal then return disk
  return (disk.erase location).put goal entry

def copy (disk : Disk) (working : Option Location) (source target : Path) :
    Except SystemError Disk := do
  match ← disk.reach working source with
  | (_, .file contents executable) =>
    disk.fill working target fun _ => .file contents executable
  | _ => throw .unsupportedFile

def holds (disk : Disk) (location : Location) : Bool := disk.get? location == some .directory

/-- Files, and directories with nothing in them. -/
def leaves (disk : Disk) : List (Location × DiskEntry) :=
  disk.entries.filter fun entry =>
    entry.2 != .directory ||
      disk.entries.all fun other => !(entry.1.isPrefixOf other.1 && entry.1 != other.1)

end Disk

end FragmentBuild
