import FragmentBuild.Proofs.Running

/-! Temporary files and working directories are a matter of the disk alone: nothing that is
done for them calls a tool or hands an archive to the linker. -/
namespace FragmentBuild

/-- Requests that make, move and give up temporary things. -/
def Request.IsScratch : Request → Prop
  | .call _ | .link _ | .print _ | .removeTree _ | .discardTree _ => False
  | _ => True

theorem Request.IsScratch.isLocal {request : Request} (isScratch : request.IsScratch) :
    request.IsLocal := by
  cases request <;> trivial

def Request.IsFolding : Request → Prop
  | .workingDirectory | .freshName | .makeDirectory _ | .makeDirectories _ => True
  | _ => False

theorem Request.IsFolding.isScratch {request : Request} (isFolding : request.IsFolding) :
    request.IsScratch := by
  cases request <;> trivial

/-- Requests that find names and make directories and files. -/
def Request.IsMaking : Request → Prop
  | .createFile _ => True
  | request => request.IsFolding

theorem Request.IsFolding.isMaking {request : Request} (isFolding : request.IsFolding) :
    request.IsMaking := by
  cases request <;> trivial

def Request.IsHandling : Request → Prop
  | .report _ => False
  | request => request.IsScratch

theorem Request.IsHandling.isScratch {request : Request} (isHandling : request.IsHandling) :
    request.IsScratch := by
  cases request <;> trivial

theorem Request.IsMaking.isHandling {request : Request} (isMaking : request.IsMaking) :
    request.IsHandling := by
  cases request <;> trivial

theorem Task.Asks.isLocal {task : Task α} (asks : task.Asks Request.IsScratch) :
    task.Asks Request.IsLocal :=
  Program.Asks.mono asks fun _ => Request.IsScratch.isLocal

theorem Task.Asks.isScratch {task : Task α} (asks : task.Asks Request.IsFolding) :
    task.Asks Request.IsScratch :=
  Program.Asks.mono asks fun _ => Request.IsFolding.isScratch

theorem Task.Asks.unreported {task : Task α} (asks : task.Asks Request.IsHandling) :
    task.Asks Request.IsScratch :=
  Program.Asks.mono asks fun _ => Request.IsHandling.isScratch

namespace Scratch

theorem asks_absolute (path : Path) : (absolute path).Asks Request.IsFolding := by
  unfold absolute
  split
  · exact .pure _ _
  · refine .bind (.request _ trivial) fun working => ?_
    cases working <;> exact .pure _ _

theorem makes_freshFile (root : Path) (ending : OsText) (attempts : Nat) :
    (freshFile root ending attempts).Asks Request.IsMaking := by
  induction attempts with
  | zero => exact .pure _ _
  | succ attempts ih =>
    refine .bind (.request _ trivial) fun name => ?_
    refine .bind ((asks_absolute _).mono fun _ => Request.IsFolding.isMaking) fun whole => ?_
    cases whole with
    | error cause => exact .pure _ _
    | ok path =>
      refine .bind (.request _ trivial) fun made => ?_
      rcases made with cause | ⟨⟩
      · cases cause with
        | alreadyExists => exact ih
        | _ => exact .pure _ _
      · exact .pure _ _

theorem asks_freshDirectory (base : Path) (start : OsText) (attempts : Nat) :
    (freshDirectory base start attempts).Asks Request.IsFolding := by
  induction attempts with
  | zero => exact .pure _ _
  | succ attempts ih =>
    refine .bind (.request _ trivial) fun name => ?_
    refine .bind (.request _ trivial) fun made => ?_
    rcases made with cause | ⟨⟩
    · cases cause with
      | alreadyExists => exact ih
      | _ => exact .pure _ _
    · exact .pure _ _

theorem makes_newFile (scratch : Scratch) (ending : OsText) :
    (scratch.newFile ending).Asks Request.IsMaking :=
  .bind (.orInaccessible _ (.request _ trivial)) fun _ =>
    .orInaccessible _ (makes_freshFile _ _ _)

theorem handles_newFile (scratch : Scratch) (ending : OsText) :
    (scratch.newFile ending).Asks Request.IsHandling :=
  (scratch.makes_newFile ending).mono fun _ => Request.IsMaking.isHandling

theorem asks_newFile (scratch : Scratch) (ending : OsText) :
    (scratch.newFile ending).Asks Request.IsScratch := (scratch.handles_newFile ending).unreported

theorem handles_sourceFile (scratch : Scratch) (text : String) :
    (scratch.sourceFile text).Asks Request.IsHandling := by
  refine .bind (scratch.handles_newFile ".rs") fun path => ?_
  refine .bind (.onFailure (.orInaccessible _ (.request _ trivial)) _ ?_) fun _ => .pure _ _
  simp [Request.IsHandling, Request.IsScratch]

theorem asks_sourceFile (scratch : Scratch) (text : String) :
    (scratch.sourceFile text).Asks Request.IsScratch := (scratch.handles_sourceFile text).unreported

theorem handles_move (source target : Path) : (move source target).Asks Request.IsHandling := by
  refine .bind (.lift (.request _ trivial)) fun moved => ?_
  cases moved with
  | ok done => exact .pure _ _
  | error cause =>
    refine .bind (.orInaccessible _ (.request _ trivial)) fun _ => ?_
    exact .orInaccessible _ (.request _ trivial)

theorem handles_relocate (scratch : Scratch) (built : Path) :
    (scratch.relocate built).Asks Request.IsHandling := by
  have handOn : (do
      let target ← scratch.archivePath
      (move built target).onFailure [.discardFile target]
      return target : Task Path).Asks Request.IsHandling := by
    refine .bind (scratch.handles_newFile ".a") fun target => ?_
    refine .bind (.onFailure (handles_move built target) _ ?_) fun _ => .pure _ _
    simp [Request.IsHandling, Request.IsScratch]
  refine .bind (.lift (.request _ trivial)) fun isFile => ?_
  split
  · exact .bind (.fail _ _) fun _ => handOn
  · exact handOn

theorem asks_relocate (scratch : Scratch) (built : Path) :
    (scratch.relocate built).Asks Request.IsScratch := (scratch.handles_relocate built).unreported

end Scratch

namespace WorkDirectory

theorem asks_make (parent : Path) (mode : WorkMode) (name : OsText) :
    (make parent mode name).Asks Request.IsFolding := by
  cases mode with
  | unique =>
    refine .bind (.orInaccessible _ (Scratch.asks_absolute _)) fun base => ?_
    exact .bind (.orInaccessible _ (Scratch.asks_freshDirectory _ _ _)) fun _ => .pure _ _
  | fixed => exact .bind (.orInaccessible _ (.request _ trivial)) fun _ => .pure _ _

theorem asks_remove (work : WorkDirectory) : work.remove.Asks Request.IsLocal := by
  cases work with
  | unique path =>
    refine Program.Asks.bind (.request _ trivial) fun removed => ?_
    cases removed <;> exact .pure _ _
  | fixed path => exact .orInaccessible _ (.request _ trivial)

theorem isLocal_givenUp (work : WorkDirectory) :
    ∀ request ∈ work.givenUp, request.IsLocal := by
  cases work <;> simp [givenUp, Request.IsLocal]

end WorkDirectory

theorem Task.Asks.sameRecords {task : Task α} (asks : task.Asks Request.IsLocal)
    (ran : World.exec world task = (result, after)) : World.SameRecords world after := by
  have same := Program.Asks.sameRecords asks world
  rw [World.exec] at ran
  rwa [ran] at same

end FragmentBuild
