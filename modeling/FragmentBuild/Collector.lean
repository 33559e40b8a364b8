import FragmentBuild.Failure
import FragmentBuild.Log
import FragmentBuild.Policy
import FragmentBuild.Source

/-! Collecting a unit. The first call fixes the unit's policy and schedules what happens to
the unit when it is finished; from then on fragments and dependencies gather in the order of
the calls. -/
namespace FragmentBuild

/-- What has been collected for a unit. -/
structure UnitState where
  policy : Policy
  fragments : List String := []
  /-- In the order of declaration; repeated names stay. -/
  dependencies : List Dependency := []
  deriving DecidableEq, Repr

namespace UnitState

def hasDependencies (state : UnitState) : Bool := !state.dependencies.isEmpty

end UnitState

abbrev Hook (ρ : Type) := String → UnitState → ρ

structure Collector (ρ : Type) where
  unit : String
  defaultPolicy : Policy
  /-- Gives the hook of a unit when the unit's state is created. -/
  schedule : String → Hook ρ
  /-- The state with the hook scheduled for it, from the first call on. -/
  collected : Option (UnitState × Hook ρ) := none
  /-- How many hooks have been scheduled. -/
  schedulings : Nat := 0

namespace Collector

inductive Call where
  /-- Creates the state if there is none; a policy fixes the policy of the new state. -/
  | ensure (policy : Option Policy)
  | setPolicy (policy : Policy)
  | fragment (text : String)
  | dependency (package : Dependency)
  | query (type : TypeExpr)
  deriving Repr

inductive Answer where
  | done
  | fragments (count : Nat)
  | host (type : HostType)
  deriving DecidableEq, Repr

inductive Phase where
  | uninitialized
  | collecting
  deriving DecidableEq, Repr

variable {ρ : Type}

def phase (collector : Collector ρ) : Phase :=
  if collector.collected.isSome then .collecting else .uninitialized

def state? (collector : Collector ρ) : Option UnitState := collector.collected.map (·.1)

def Call.policy? : Call → Option Policy
  | .ensure policy => policy
  | .setPolicy policy => some policy
  | _ => none

def Call.extend (state : UnitState) : Call → UnitState
  | .fragment text => { state with fragments := state.fragments ++ [text] }
  | .dependency package =>
    { state with
      fragments := state.fragments ++ [declaration package.name]
      dependencies := state.dependencies ++ [package] }
  | .ensure _ | .setPolicy _ | .query _ => state

/-- Only a call that comes too late with its policy is refused. -/
def refuses (collector : Collector ρ) (call : Call) : Bool :=
  collector.collected.isSome && call.policy?.isSome

/-- What a call works on, and how many hooks have been scheduled then. -/
structure Begun (ρ : Type) where
  state : UnitState
  hook : Hook ρ
  schedulings : Nat

/-- What is collected so far. If that is nothing, a state is created and its hook scheduled. -/
def current (collector : Collector ρ) (call : Call) : Begun ρ :=
  match collector.collected with
  | some (state, hook) => ⟨state, hook, collector.schedulings⟩
  | none =>
    ⟨⟨call.policy?.getD collector.defaultPolicy, [], []⟩, collector.schedule collector.unit,
      collector.schedulings + 1⟩

def after (collector : Collector ρ) (call : Call) : Collector ρ :=
  if collector.refuses call then collector
  else
    let begun := collector.current call
    { collector with
      collected := some (call.extend begun.state, begun.hook)
      schedulings := begun.schedulings }

def answer (collector : Collector ρ) (call : Call) : Except Failure Answer :=
  if collector.refuses call then .error (.policyAlreadySet collector.unit)
  else
    let state := (collector.current call).state
    match call with
    | .ensure _ => .ok (.fragments state.fragments.length)
    | .query type =>
      match state.policy.lookup type with
      | some host => .ok (.host host)
      | none => .error (.unmappedType type)
    | .setPolicy _ | .fragment _ | .dependency _ => .ok .done

/-- What is reported before a call is carried out. -/
def announcement (unit : String) : Call → List Event
  | .fragment text =>
    [.topic .registry (unit ++ ": fragment of " ++ toString text.utf8ByteSize ++ " bytes")]
  | .dependency package =>
    [.topic .registry (unit ++ ": dependency " ++ package.name ++ " = " ++ package.version)]
  | _ => []

def events (collector : Collector ρ) (call : Call) : List Event :=
  announcement collector.unit call ++
    if collector.collected.isNone then [.topic .registry (collector.unit ++ ": state created")]
    else []

/-- Runs the scheduled hook on the final state. Nothing was scheduled for a unit without
calls. -/
def finish (collector : Collector ρ) : Option ρ :=
  collector.collected.map fun (state, hook) => hook collector.unit state

def closing (collector : Collector ρ) : Event :=
  .topic .registry (match collector.collected with
    | none => collector.unit ++ ": nothing registered"
    | some (state, _) =>
      collector.unit ++ ": finalizing " ++ toString state.fragments.length ++ " fragments, "
        ++ toString state.dependencies.length ++ " dependencies")

end Collector

end FragmentBuild
