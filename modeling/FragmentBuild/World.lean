import FragmentBuild.Disk
import FragmentBuild.Program

/-! A world in which programs run: a disk, an environment, a tool that may do anything to the
disk, and a record of what was asked for. Running a program in it is a function. -/
namespace FragmentBuild

/-- What a process finds and leaves. The working directory is missing once it has been
removed. -/
structure Machine where
  disk : Disk
  working : Option Location
  environment : List (String × OsText) := []

/-- What calling a tool does and answers. -/
abbrev Tool := Invocation → Machine → Except SystemError Report × Disk

namespace Machine

def locationPath (location : Location) : Path :=
  ⟨⟨slashByte :: [slashByte].intercalate (location.map OsText.toList)⟩⟩

/-- A machine whose working directory is lost if it is no longer on the disk. -/
def withDisk (machine : Machine) (disk : Disk) : Machine :=
  { machine with disk, working := machine.working.filter disk.holds }

def read (machine : Machine) (path : Path) : Except SystemError ByteArray :=
  machine.disk.read machine.working path

def textAt? (machine : Machine) (path : Path) : Option String :=
  match machine.read path with
  | .ok contents => String.fromUTF8? contents
  | .error _ => none

def change (machine : Machine) (result : Except SystemError Disk) :
    Except SystemError Unit × Machine :=
  match result with
  | .ok disk => (.ok (), machine.withDisk disk)
  | .error error => (.error error, machine)

def attempt (machine : Machine) (result : Except SystemError Unit × Disk) :
    Except SystemError Unit × Machine :=
  (result.1, machine.withDisk result.2)

end Machine

def nameAlphabet : List Char :=
  "abcdefghijklmnopqrstuvwxyzABCDEFGHIJKLMNOPQRSTUVWXYZ0123456789".toList

def nameLetters (number : Nat) : Nat → List Char
  | 0 => []
  | count + 1 =>
    nameLetters (number / 62) count ++ [(nameAlphabet[number % 62]?).getD 'a']

def countedName (number : Nat) : String := String.ofList (nameLetters number 6)

structure World where
  machine : Machine
  tool : Tool
  /-- The names that are given out one after the other, and how many have been. -/
  names : Nat → String := countedName
  named : Nat := 0
  /-- Every call of the tool with the machine it was made on. -/
  calls : List (Invocation × Machine) := []
  events : List Event := []
  plan : LinkPlan := .empty
  printed : String := ""

namespace World

def withMachine (world : World) (result : α × Machine) : α × World :=
  (result.1, { world with machine := result.2 })

def answer (world : World) : (request : Request) → request.Answer × World
  | .workingDirectory =>
    (match world.machine.working with
      | some location => .ok (Machine.locationPath location)
      | none => .error .notFound, world)
  | .environment name => (world.machine.environment.lookup name, world)
  | .makeDirectories path =>
    world.withMachine (world.machine.attempt
      (world.machine.disk.makeDirectories world.machine.working path))
  | .makeDirectory path =>
    world.withMachine (world.machine.change
      (world.machine.disk.makeDirectory world.machine.working path))
  | .createFile path =>
    world.withMachine (world.machine.change
      (world.machine.disk.createFile world.machine.working path))
  | .write path contents =>
    world.withMachine (world.machine.change
      (world.machine.disk.write world.machine.working path contents))
  | .read path => (world.machine.read path, world)
  | .isPresent path => (world.machine.disk.isPresent world.machine.working path, world)
  | .isFile path => (world.machine.disk.isFile world.machine.working path, world)
  | .rename source target =>
    world.withMachine (world.machine.change
      (world.machine.disk.rename world.machine.working source target))
  | .copy source target =>
    world.withMachine (world.machine.change
      (world.machine.disk.copy world.machine.working source target))
  | .removeFile path =>
    world.withMachine (world.machine.change
      (world.machine.disk.removeFile world.machine.working path))
  | .removeTree path =>
    world.withMachine (world.machine.attempt
      (world.machine.disk.removeTree world.machine.working path))
  | .discardFile path =>
    ((), (world.withMachine (world.machine.change
      (world.machine.disk.removeFile world.machine.working path))).2)
  | .discardTree path =>
    ((), (world.withMachine (world.machine.attempt
      (world.machine.disk.removeTree world.machine.working path))).2)
  | .freshName => (world.names world.named, { world with named := world.named + 1 })
  | .call invocation =>
    let (result, disk) := world.tool invocation world.machine
    (result, { world with
      machine := world.machine.withDisk disk
      calls := world.calls ++ [(invocation, world.machine)] })
  | .report event => ((), { world with events := world.events ++ [event] })
  | .link archive => ((), { world with plan := world.plan.register archive })
  | .linkPlan => (world.plan, world)
  | .print text => ((), { world with printed := world.printed ++ text })

def run (world : World) : Program α → α × World
  | .done value => (value, world)
  | .ask request next => (world.answer request).2.run (next (world.answer request).1)

end World

end FragmentBuild
