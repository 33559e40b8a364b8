import FragmentBuild.Entries
import FragmentBuild.Scratch

/-! Temporary things kept in named slots. A slot owns what it holds: storing something else
in it, or clearing it, gives up what was there. -/
namespace FragmentBuild

inductive Held where
  | source (path : Path)
  | archive (path : Path)
  | directory (work : WorkDirectory)
  deriving DecidableEq, Repr

namespace Held

def path : Held → Path
  | .source path | .archive path => path
  | .directory work => work.path

def givenUp : Held → List Request
  | .source path | .archive path => [.discardFile path]
  | .directory work => work.givenUp

end Held

structure Shelf where
  scratch : Scratch
  held : List (String × Held) := []

namespace Shelf

inductive Step where
  | source (slot contents : String)
  | archive (slot : String)
  | directory (slot : String) (parent : Path) (mode : WorkMode) (name : String)
  /-- Hands a file on to somebody else, who owns it from then on. -/
  | handOff (slot : String)
  | relocate (built : Path)
  /-- Removes a working directory. -/
  | remove (slot : String)
  | drop (slot : String)
  deriving Repr

inductive Reply where
  | path (path : Path)
  | removed
  | dropped (held : Bool)
  | failed (failure : Failure)
  | noSuchSlot
  deriving DecidableEq, Repr

def get? (shelf : Shelf) (slot : String) : Option Held := shelf.held.lookup slot

def without (shelf : Shelf) (slot : String) : Shelf :=
  { shelf with held := shelf.held.filter (·.1 != slot) }

def giveUp (held : Option Held) : Program Unit :=
  Task.requestAll ((held.map Held.givenUp).getD [])

def store (shelf : Shelf) (slot : String) (make : Task Held) : Program (Reply × Shelf) := do
  match ← make.run with
  | .error failure => return (.failed failure, shelf)
  | .ok held =>
    giveUp (shelf.get? slot)
    return (.path held.path, { shelf with held := setEntry slot held shelf.held })

def perform (shelf : Shelf) : Step → Program (Reply × Shelf)
  | .source slot contents => shelf.store slot do
    return .source (← shelf.scratch.sourceFile contents)
  | .archive slot => shelf.store slot do return .archive (← shelf.scratch.archivePath)
  | .directory slot parent mode name => shelf.store slot do
    return .directory (← WorkDirectory.make parent mode name)
  | .handOff slot =>
    match shelf.get? slot with
    | some held => return (.path held.path, shelf.without slot)
    | none => return (.noSuchSlot, shelf)
  | .relocate built => do
    match ← (shelf.scratch.relocate built).run with
    | .ok path => return (.path path, shelf)
    | .error failure => return (.failed failure, shelf)
  | .remove slot =>
    match shelf.get? slot with
    | some (.directory work) => do
      match ← work.remove.run with
      | .ok () => return (.removed, shelf.without slot)
      | .error failure => return (.failed failure, shelf.without slot)
    | _ => return (.noSuchSlot, shelf)
  | .drop slot => do
    giveUp (shelf.get? slot)
    return (.dropped (shelf.get? slot).isSome, shelf.without slot)

def clear (shelf : Shelf) : Program Unit :=
  Task.requestAll (shelf.held.flatMap fun entry => entry.2.givenUp)

end Shelf

end FragmentBuild
