import FragmentBuild.Disk
import FragmentBuild.Shell.Script

/-! What the processes of a machine share: the disk, the files that are open, pipes, and signals
that have been sent. -/
namespace FragmentBuild.Shell

inductive Target where
  /-- Nothing is ever in it. -/
  | nothing
  | file (location : Location)
  | directory (location : Location)
  | pipe (number : Nat)

structure OpenFile where
  target : Target
  isReadable : Bool := true
  isWritable : Bool := true
  /-- Whether everything is written at the end. -/
  appends : Bool := false
  offset : Nat := 0

/-- What has been written to a pipe and not been read. -/
structure Pipe where
  /-- In the order in which it is read. -/
  unread : Bytes := []
  /-- What comes after that, last first. -/
  written : Bytes := []
  /-- How much more can be written before nobody reads it any more, if there is a limit. -/
  room : Option Nat := none

structure System where
  disk : Disk
  files : Array OpenFile := #[]
  pipes : Array Pipe := #[]
  /-- The number of the next process, and those of the processes that are there. -/
  nextProcess : Nat := 1000
  alive : List Nat := []
  /-- Signals that have been sent to processes, last first. -/
  signals : List (Nat × Nat) := []

inductive WriteFault where
  | refused (error : SystemError)
  /-- Nobody reads what is written. -/
  | unheard

namespace System

def addFile (system : System) (file : OpenFile) : Nat × System :=
  (system.files.size, { system with files := system.files.push file })

/-- A new pipe, its end for reading and its end for writing. -/
def addPipe (system : System) (room : Option Nat) : Nat × Nat × Nat × System :=
  let number := system.pipes.size
  let (source, system) := { system with pipes := system.pipes.push { room } }.addFile
    { target := .pipe number, isWritable := false }
  let (sink, system) := system.addFile { target := .pipe number, isReadable := false }
  (number, source, sink, system)

def unread (system : System) (file : OpenFile) : Except SystemError Bytes :=
  if !file.isReadable then .error .badDescriptor
  else
    match file.target with
    | .nothing => .ok []
    | .directory _ => .error .isADirectory
    | .file location =>
      match system.disk.get? location with
      | some (.file contents _) =>
        .ok (ofByteArray (contents.extract file.offset contents.size))
      | _ => .ok []
    | .pipe number =>
      match system.pipes[number]? with
      | some pipe => .ok (pipe.unread ++ pipe.written.reverse)
      | none => .ok []

def readAll (system : System) (number : Nat) : Except SystemError (Bytes × System) := do
  match system.files[number]? with
  | none => throw .badDescriptor
  | some file => do
    let text ← system.unread file
    match file.target with
    | .pipe pipe =>
      return (text, { system with
        pipes := system.pipes.modify pipe fun pipe => { pipe with unread := [], written := [] } })
    | _ =>
      return (text, { system with
        files := system.files.set! number { file with offset := file.offset + text.length } })

def readByte (system : System) (number : Nat) : Except SystemError (Option Char × System) := do
  match system.files[number]? with
  | none => throw .badDescriptor
  | some file =>
    if !file.isReadable then throw .badDescriptor
    match file.target with
    | .nothing => return (none, system)
    | .directory _ => throw .isADirectory
    | .file location =>
      match system.disk.get? location with
      | some (.file contents _) =>
        if h : file.offset < contents.size then
          return (some (Char.ofNat contents[file.offset].toNat), { system with
            files := system.files.set! number { file with offset := file.offset + 1 } })
        else return (none, system)
      | _ => return (none, system)
    | .pipe pipe =>
      match system.pipes[pipe]? with
      | none => return (none, system)
      | some { unread, written, room } =>
        let setPipe := fun (unread written : Bytes) =>
          { system with pipes := system.pipes.set! pipe { unread, written, room } }
        match unread, written.reverse with
        | c :: rest, _ => return (some c, setPipe rest written)
        | [], c :: rest => return (some c, setPipe rest [])
        | [], [] => return (none, system)

/-- Contents with a text written over them. A gap before the text is filled with zeros. -/
def overwritten (contents : ByteArray) (offset : Nat) (text : ByteArray) : ByteArray :=
  let gap := ByteArray.mk (Array.replicate (offset - contents.size) 0)
  contents.extract 0 offset ++ gap ++ text ++
    contents.extract (offset + text.size) contents.size

def write (system : System) (number : Nat) (text : Bytes) : Except WriteFault System := do
  match system.files[number]? with
  | none => throw (.refused .badDescriptor)
  | some file =>
    if !file.isWritable then throw (.refused .badDescriptor)
    match file.target with
    | .nothing => return system
    | .directory _ => throw (.refused .isADirectory)
    | .pipe pipe =>
      match system.pipes[pipe]? with
      | none => throw .unheard
      | some { unread, written, room } =>
        let length := text.length
        if room.any (· < length) then throw .unheard
        let pipes := system.pipes.set! pipe
          { unread, written := text.reverse ++ written, room := room.map (· - length) }
        return { system with pipes }
    | .file location =>
      match system.disk.get? location with
      | some (.file contents isExecutable) =>
        let text := toByteArray text
        let offset := if file.appends then contents.size else file.offset
        return { system with
          disk := system.disk.put location (.file (overwritten contents offset text) isExecutable)
          files := system.files.set! number { file with offset := offset + text.size } }
      | _ => return system

def targetAt (system : System) (location : Location) : Target :=
  match system.disk.get? location with
  | some .directory => .directory location
  | some .sink => .nothing
  | _ => .file location

def openToRead (system : System) (working : Option Location) (path : Path) :
    Except SystemError OpenFile := do
  let (location, _) ← system.disk.reach working path
  return { target := system.targetAt location, isWritable := false }

def openToWrite (system : System) (working : Option Location) (path : Path)
    (isReadable appends empties : Bool) : Except SystemError (OpenFile × System) := do
  let (name, slash) ← system.disk.locateNew working path
  let location ← system.disk.follow Disk.linkLimit name
  let disk ←
    match system.disk.get? location with
    | some .directory => throw .isADirectory
    | some (.link _) => throw .tooManyLinks
    | some .sink => pure system.disk
    | some (.file contents isExecutable) => do
      if slash then throw .notADirectory
      pure (if empties && contents.size != 0 then
        system.disk.put location (.file .empty isExecutable) else system.disk)
    | none => do
      if slash then throw .isADirectory
      pure (system.disk.put location (.file .empty false))
  let system := { system with disk }
  return ({ target := system.targetAt location, isReadable, appends }, system)

end System

end FragmentBuild.Shell
