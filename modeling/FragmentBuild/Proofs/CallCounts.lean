import FragmentBuild.Proofs.Endings
import FragmentBuild.Proofs.Finishing

/-! How often a tool is called. A build calls a tool once at the most, whatever is answered to
its requests. -/
namespace FragmentBuild

def Request.invocation? : Request → Option Invocation
  | .call invocation => some invocation
  | _ => none

def callsIn (trace : List Exchange) : List Invocation :=
  trace.filterMap (·.request.invocation?)

theorem callsIn_append (first rest : List Exchange) :
    callsIn (first ++ rest) = callsIn first ++ callsIn rest :=
  List.filterMap_append

/-- How many calls a request makes. -/
def Request.cost : Request → Nat
  | .call _ => 1
  | _ => 0

theorem Request.length_invocation? (request : Request) :
    request.invocation?.toList.length = request.cost := by
  cases request <;> rfl

theorem length_callsIn_cons (exchange : Exchange) (trace : List Exchange) :
    (callsIn (exchange :: trace)).length = exchange.request.cost + (callsIn trace).length := by
  have one := exchange.request.length_invocation?
  cases called : exchange.request.invocation? <;>
    simp [called] at one <;> simp [callsIn, called, ← one, Nat.add_comm]

theorem Request.IsLocal.cost {request : Request} (isLocal : request.IsLocal) :
    request.cost = 0 := by
  cases request <;> first | rfl | exact isLocal.elim

namespace Program

/-- Whatever the answers, the program calls tools no more often than `limit` says. -/
def CallsAtMost : Nat → Program α → Prop
  | _, .done _ => True
  | limit, .ask request next =>
    request.cost ≤ limit ∧ ∀ answer, (next answer).CallsAtMost (limit - request.cost)

theorem CallsAtMost.mono {program : Program α} (few : program.CallsAtMost limit)
    (more : limit ≤ bound) : program.CallsAtMost bound := by
  induction program generalizing limit bound with
  | done value => trivial
  | ask request next ih =>
    obtain ⟨here, later⟩ := few
    exact ⟨by omega, fun answer => ih answer (later answer) (by omega)⟩

theorem CallsAtMost.bind {program : Program α} {next : α → Program β}
    (first : program.CallsAtMost count) (rest : ∀ value, (next value).CallsAtMost others) :
    (program >>= next).CallsAtMost (count + others) := by
  induction program generalizing count with
  | done value => exact (rest value).mono (by omega)
  | ask request resume ih =>
    obtain ⟨here, later⟩ := first
    have added : count + others - request.cost = count - request.cost + others := by omega
    refine ⟨by omega, fun answer => ?_⟩
    rw [added]
    exact ih answer (later answer)

theorem Asks.callsAtMost {program : Program α} (asks : program.Asks Request.IsLocal) :
    program.CallsAtMost 0 := by
  induction program with
  | done value => trivial
  | ask request next ih =>
    have none := asks.1.cost
    exact ⟨by omega, fun answer => (ih answer (asks.2 answer)).mono (by omega)⟩

theorem CallsAtMost.before {program : Program α} {next : α → Program β}
    (first : program.CallsAtMost limit) (rest : ∀ value, (next value).Asks Request.IsLocal) :
    (program >>= next).CallsAtMost limit :=
  first.bind fun value => (rest value).callsAtMost

theorem CallsAtMost.request (request : Request) :
    (Program.request request).CallsAtMost request.cost :=
  ⟨Nat.le_refl _, fun _ => trivial⟩

end Program

theorem World.Runs.length_callsIn {program : Program α} {world after : World}
    (few : program.CallsAtMost limit) (ran : World.Runs mishap world program trace value after) :
    (callsIn trace).length ≤ limit := by
  induction ran generalizing limit with
  | done => exact Nat.zero_le _
  | answered ran ih | refused refusal harm ran ih =>
    have later := ih (few.2 _)
    have here := few.1
    rw [length_callsIn_cons]
    dsimp only at later ⊢
    omega

theorem callsIn_eq_nil (quiet : ∀ exchange ∈ trace, exchange.request.IsLocal) :
    callsIn trace = [] := by
  rw [callsIn, List.filterMap_eq_nil_iff]
  intro exchange member
  have isLocal := quiet exchange member
  cases called : exchange.request <;> rw [called] at isLocal <;>
    first | rfl | exact isLocal.elim

theorem World.Runs.callsIn_eq_nil {program : Program α} {world after : World}
    (asks : program.Asks Request.IsLocal)
    (ran : World.Runs mishap world program trace value after) : callsIn trace = [] :=
  FragmentBuild.callsIn_eq_nil (ran.asked asks)

namespace Task

def CallsAtMost (limit : Nat) (task : Task α) : Prop := Program.CallsAtMost limit task.run

theorem CallsAtMost.bind {task : Task α} {next : α → Task β} (first : task.CallsAtMost count)
    (rest : ∀ value, (next value).CallsAtMost others) :
    (task >>= next).CallsAtMost (count + others) := by
  refine Program.CallsAtMost.bind first fun result => ?_
  cases result with
  | error failure => trivial
  | ok value => exact rest value

theorem Asks.callsAtMost {task : Task α} (asks : task.Asks Request.IsLocal) :
    task.CallsAtMost 0 :=
  Program.Asks.callsAtMost asks

theorem CallsAtMost.lift {program : Program α} (few : program.CallsAtMost limit) :
    (ExceptT.lift program : Task α).CallsAtMost limit :=
  Program.CallsAtMost.before few fun _ => trivial

theorem CallsAtMost.after {task : Task α} {next : α → Task β} (first : task.Asks Request.IsLocal)
    (rest : ∀ value, (next value).CallsAtMost limit) : (task >>= next).CallsAtMost limit := by
  have whole := first.callsAtMost.bind rest
  rwa [Nat.zero_add] at whole

theorem CallsAtMost.before {task : Task α} {next : α → Task β} (first : task.CallsAtMost limit)
    (rest : ∀ value, (next value).Asks Request.IsLocal) : (task >>= next).CallsAtMost limit :=
  first.bind fun value => (rest value).callsAtMost

variable {task : Task α} {discarded : List Request}

theorem CallsAtMost.onFailure (few : task.CallsAtMost limit)
    (given : ∀ request ∈ discarded, request.IsLocal) :
    (task.onFailure discarded).CallsAtMost limit := by
  refine Program.CallsAtMost.before few fun result => ?_
  cases result with
  | ok value => trivial
  | error failure => exact Program.Asks.bind (asks_requestAll discarded given) fun _ => trivial

theorem CallsAtMost.thenDiscard (few : task.CallsAtMost limit)
    (given : ∀ request ∈ discarded, request.IsLocal) :
    (task.thenDiscard discarded).CallsAtMost limit :=
  Program.CallsAtMost.before few fun _ =>
    Program.Asks.bind (asks_requestAll discarded given) fun _ => trivial

end Task

namespace Builder

theorem callsAtMost_callTool (builder : Builder) (invocation : Invocation) (action : String) :
    (builder.callTool invocation action).CallsAtMost 1 := by
  refine .after (asks_report _ _).isLocal fun _ => ?_
  refine .before (.lift (.request (.call invocation))) fun answer => ?_
  cases answer with
  | error cause => exact .fail _ _
  | ok report =>
    dsimp only
    split
    · exact .bind (asks_report _ _).isLocal fun _ => .fail _ _
    · exact .pure _ _

theorem callsAtMost_buildDirect (builder : Builder) (job : Job) :
    (builder.buildDirect job).CallsAtMost 1 := by
  refine .after (Scratch.asks_sourceFile _ _).isLocal fun source => ?_
  refine .thenDiscard ?_ (by simp [Request.IsLocal])
  refine .after (Scratch.asks_newFile _ _).isLocal fun archive => ?_
  refine .before (.onFailure ?_ (by simp [Request.IsLocal])) fun _ => .pure _ _
  exact .after (asks_report _ _).isLocal fun _ => builder.callsAtMost_callTool _ _

theorem callsAtMost_buildIn (builder : Builder) (job : Job) (manifest : String)
    (work : WorkDirectory) : (builder.buildIn job manifest work).CallsAtMost 1 := by
  refine .after (.orInaccessible _ (.request _ trivial)) fun _ => ?_
  refine .after (.orInaccessible _ (.request _ trivial)) fun _ => ?_
  refine .after (asks_report _ _).isLocal fun _ => ?_
  refine .after (asks_report _ _).isLocal fun _ => ?_
  refine .before (builder.callsAtMost_callTool _ _) fun _ => ?_
  refine .bind (Scratch.asks_relocate _ _).isLocal fun archive => ?_
  exact .bind (asks_report _ _).isLocal fun _ => .pure _ _

/-- A build calls a tool once at the most. -/
theorem callsAtMost_build (builder : Builder) (job : Job) :
    (builder.build job).CallsAtMost 1 := by
  refine .after (asks_report _ _).isLocal fun _ => ?_
  cases job.manifest with
  | none => exact builder.callsAtMost_buildDirect job
  | some manifest =>
    refine .after (WorkDirectory.asks_make _ _ _).isScratch.isLocal fun work => ?_
    refine .before (.onFailure (builder.callsAtMost_buildIn job manifest work)
      work.isLocal_givenUp) fun archive => ?_
    exact .bind work.asks_remove fun _ => .pure _ _

end Builder

theorem Compilation.callsAtMost_building (settings : Settings) (builder : Builder)
    (unit : String) (state : UnitState) :
    (building settings builder unit state).CallsAtMost 1 := by
  refine .after (builder.asks_report _).isLocal fun _ => ?_
  refine .after (.orInaccessible _ (.request _ trivial)) fun workRoot => ?_
  exact .after (builder.asks_report _).isLocal fun _ => builder.callsAtMost_build _

end FragmentBuild
