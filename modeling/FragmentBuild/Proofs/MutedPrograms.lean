import FragmentBuild.Proofs.LocalRequests

/-! Programs that report less. Two programs are compared that differ in the reports they make and in
nothing else: the loud one reports everything, the muted one what some verbosity shows. Main
statement: building a job is such a pair of programs. -/
namespace FragmentBuild

def Verbosity.loud : Verbosity := { debug := true, level := 3 }

@[simp] theorem Verbosity.shows_loud (event : Event) : Verbosity.loud.shows event = true := by
  cases event <;> rfl

def Request.IsUnheard : Request → Prop
  | .report _ => False
  | _ => True

theorem Request.IsHandling.unheard {request : Request} (isHandling : request.IsHandling) :
    request.IsUnheard := by
  cases request <;> trivial

namespace Program

/-- The muted program asks for the same as the loud one, in the same order and whatever the answers,
but leaves out the reports that are not shown. Where both are done their values are related. -/
inductive Mutes (verbosity : Verbosity) (related : α → β → Prop) :
    Program α → Program β → Prop where
  | done {loud : α} {muted : β} (same : related loud muted) :
      Mutes verbosity related (.done loud) (.done muted)
  | asked {request : Request} {loud : request.Answer → Program α}
      {muted : request.Answer → Program β} (unheard : request.IsUnheard)
      (rest : ∀ answer, Mutes verbosity related (loud answer) (muted answer)) :
      Mutes verbosity related (.ask request loud) (.ask request muted)
  | shown {event : Event} {loud : Unit → Program α} {muted : Unit → Program β}
      (shows : verbosity.shows event = true)
      (rest : Mutes verbosity related (loud ()) (muted ())) :
      Mutes verbosity related (.ask (.report event) loud) (.ask (.report event) muted)
  | hidden {event : Event} {loud : Unit → Program α} {muted : Program β}
      (hides : verbosity.shows event = false) (rest : Mutes verbosity related (loud ()) muted) :
      Mutes verbosity related (.ask (.report event) loud) muted

namespace Mutes

variable {verbosity : Verbosity} {related : α → β → Prop} {further : γ → δ → Prop}

theorem bind {loud : Program α} {muted : Program β} {next : α → Program γ}
    {mutedNext : β → Program δ}
    (first : Mutes verbosity related loud muted)
    (rest : ∀ one other, related one other → Mutes verbosity further (next one) (mutedNext other)) :
    Mutes verbosity further (loud >>= next) (muted >>= mutedNext) := by
  induction first with
  | done same => exact rest _ _ same
  | asked unheard _ ih => exact .asked unheard ih
  | shown shows _ ih => exact .shown shows ih
  | hidden hides _ ih => exact .hidden hides ih

theorem bind_same {loud muted : Program α} {next : α → Program γ} {mutedNext : α → Program δ}
    (first : Mutes verbosity Eq loud muted)
    (rest : ∀ value, Mutes verbosity further (next value) (mutedNext value)) :
    Mutes verbosity further (loud >>= next) (muted >>= mutedNext) :=
  first.bind fun value _ same => same ▸ rest value

theorem of_asks {program : Program α} (asks : program.Asks Request.IsUnheard) :
    Mutes verbosity Eq program program := by
  induction program with
  | done value => exact .done rfl
  | ask request next ih => exact .asked asks.1 fun answer => ih answer (asks.2 answer)

theorem request (request : Request) (unheard : request.IsUnheard) :
    Mutes verbosity Eq (Program.request request) (Program.request request) :=
  of_asks (.request request unheard)

theorem report (event : Event) :
    Mutes verbosity Eq (Program.report .loud event) (Program.report verbosity event) := by
  rw [Program.report, Program.report, if_pos (Verbosity.shows_loud event)]
  cases shows : verbosity.shows event with
  | true => exact .shown shows (.done rfl)
  | false => exact .hidden shows (.done rfl)

theorem reportAll (events : List Event) :
    Mutes verbosity Eq (Program.reportAll .loud events) (Program.reportAll verbosity events) := by
  induction events with
  | nil => exact .done rfl
  | cons event rest ih => exact (report event).bind_same fun _ => ih

end Mutes

end Program

def Task.Mutes (verbosity : Verbosity) (loud muted : Task α) : Prop :=
  Program.Mutes verbosity Eq loud.run muted.run

namespace Task.Mutes

variable {verbosity : Verbosity} {loud muted : Task α}

theorem of_asks {task : Task α} (asks : task.Asks Request.IsUnheard) :
    Task.Mutes verbosity task task := Program.Mutes.of_asks asks

theorem of_handling {task : Task α} (asks : task.Asks Request.IsHandling) :
    Task.Mutes verbosity task task :=
  of_asks (Program.Asks.mono asks fun _ => Request.IsHandling.unheard)

theorem pure (value : α) : Task.Mutes verbosity (Pure.pure value : Task α) (Pure.pure value) :=
  of_asks (.pure _ value)

theorem fail (failure : Failure) :
    Task.Mutes verbosity (Task.fail failure : Task α) (Task.fail failure) :=
  of_asks (.fail _ failure)

theorem bind {next mutedNext : α → Task β} (first : Task.Mutes verbosity loud muted)
    (rest : ∀ value, Task.Mutes verbosity (next value) (mutedNext value)) :
    Task.Mutes verbosity (loud >>= next) (muted >>= mutedNext) := by
  refine Program.Mutes.bind_same first fun result => ?_
  cases result with
  | error failure => exact .done rfl
  | ok value => exact rest value

theorem lift {program other : Program α} (mutes : Program.Mutes verbosity Eq program other) :
    Task.Mutes verbosity (ExceptT.lift program) (ExceptT.lift other) :=
  mutes.bind_same fun _ => .done rfl

theorem thenDiscard (mutes : Task.Mutes verbosity loud muted) (discarded : List Request)
    (unheard : ∀ request ∈ discarded, request.IsUnheard) :
    Task.Mutes verbosity (loud.thenDiscard discarded) (muted.thenDiscard discarded) :=
  Program.Mutes.bind_same mutes fun _ =>
    (Program.Mutes.of_asks (asks_requestAll discarded unheard)).bind_same fun _ => .done rfl

theorem onFailure (mutes : Task.Mutes verbosity loud muted) (discarded : List Request)
    (unheard : ∀ request ∈ discarded, request.IsUnheard) :
    Task.Mutes verbosity (loud.onFailure discarded) (muted.onFailure discarded) := by
  refine Program.Mutes.bind_same mutes fun result => ?_
  cases result with
  | ok value => exact .done rfl
  | error failure =>
    exact (Program.Mutes.of_asks (asks_requestAll discarded unheard)).bind_same fun _ => .done rfl

end Task.Mutes

def Settings.heardAt (settings : Settings) (verbosity : Verbosity) : Settings :=
  { settings with verbosity }

namespace Builder

variable {verbosity : Verbosity}

def heardAt (builder : Builder) (verbosity : Verbosity) : Builder :=
  { builder with settings := builder.settings.heardAt verbosity }

theorem mutes_report (builder : Builder) (event : Event) :
    Task.Mutes verbosity ((builder.heardAt .loud).report event)
      ((builder.heardAt verbosity).report event) :=
  .lift (.report event)

theorem mutes_callTool (builder : Builder) (invocation : Invocation) (action : String) :
    Task.Mutes verbosity ((builder.heardAt .loud).callTool invocation action)
      ((builder.heardAt verbosity).callTool invocation action) := by
  refine .bind (builder.mutes_report _) fun _ => ?_
  refine .bind (.lift (.request _ trivial)) fun answer => ?_
  cases answer with
  | error cause => exact .fail _
  | ok report =>
    dsimp only
    split
    · exact .bind (builder.mutes_report _) fun _ => .fail _
    · exact .pure _

theorem mutes_buildDirect (builder : Builder) (job : Job) :
    Task.Mutes verbosity ((builder.heardAt .loud).buildDirect job)
      ((builder.heardAt verbosity).buildDirect job) := by
  refine .bind (.of_handling (Scratch.handles_sourceFile _ _)) fun source => ?_
  refine .thenDiscard ?_ _ (by simp [Request.IsUnheard])
  refine .bind (.of_handling (Scratch.handles_newFile _ _)) fun archive => ?_
  refine .bind (.onFailure ?_ _ (by simp [Request.IsUnheard])) fun _ => .pure _
  exact .bind (builder.mutes_report _) fun _ => builder.mutes_callTool _ _

theorem unheard_writeFile (path : Path) (text : String) :
    (writeFile path text).Asks Request.IsUnheard := .orInaccessible _ (.request _ trivial)

theorem unheard_givenUp (work : WorkDirectory) : ∀ request ∈ work.givenUp, request.IsUnheard := by
  cases work <;> simp [WorkDirectory.givenUp, Request.IsUnheard]

theorem unheard_remove (work : WorkDirectory) : work.remove.Asks Request.IsUnheard := by
  cases work with
  | unique path =>
    refine Program.Asks.bind (.request _ trivial) fun removed => ?_
    cases removed <;> exact .pure _ _
  | fixed path => exact .orInaccessible _ (.request _ trivial)

theorem mutes_buildPackage (builder : Builder) (job : Job) (manifest : String) :
    Task.Mutes verbosity ((builder.heardAt .loud).buildPackage job manifest)
      ((builder.heardAt verbosity).buildPackage job manifest) := by
  have folding := (WorkDirectory.asks_make job.workRoot builder.settings.toolchain.workMode
    builder.settings.toolchain.workName).mono fun _ folding => folding.isMaking.isHandling
  refine .bind (.of_handling folding) fun work => ?_
  refine .bind (.onFailure ?_ _ (unheard_givenUp work)) fun archive => ?_
  · refine .bind (.of_asks (unheard_writeFile _ _)) fun _ => ?_
    refine .bind (.of_asks (unheard_writeFile _ _)) fun _ => ?_
    refine .bind (builder.mutes_report _) fun _ => ?_
    refine .bind (builder.mutes_report _) fun _ => ?_
    refine .bind (builder.mutes_callTool _ _) fun _ => ?_
    refine .bind (.of_handling (Scratch.handles_relocate _ _)) fun archive => ?_
    exact .bind (builder.mutes_report _) fun _ => .pure _
  · exact .bind (.of_asks (unheard_remove work)) fun _ => .pure _

theorem mutes_build (builder : Builder) (job : Job) :
    Task.Mutes verbosity ((builder.heardAt .loud).build job)
      ((builder.heardAt verbosity).build job) := by
  refine .bind (builder.mutes_report _) fun _ => ?_
  cases job.manifest with
  | none => exact builder.mutes_buildDirect job
  | some manifest => exact builder.mutes_buildPackage job manifest

end Builder

end FragmentBuild
