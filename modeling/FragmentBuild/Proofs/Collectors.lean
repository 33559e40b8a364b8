import FragmentBuild.Collector
import Mathlib.Data.List.Induction

/-! What a collector has gathered after any calls. The hook plays no part in its answers, and
its state is made of the fragments and dependencies of all calls in their order. -/
namespace FragmentBuild

namespace Collector

/-- Collectors that differ at most in what is made of their units. -/
structure Alike (first : Collector ρ) (second : Collector σ) : Prop where
  unit : first.unit = second.unit
  policy : first.defaultPolicy = second.defaultPolicy
  state : first.state? = second.state?

variable {first : Collector ρ} {second : Collector σ}

theorem Alike.refuses (alike : Alike first second) (call : Call) :
    first.refuses call = second.refuses call := by
  have held := congrArg Option.isSome alike.state
  simp only [state?, Option.isSome_map] at held
  rw [Collector.refuses, Collector.refuses, held]

theorem current_state (collector : Collector ρ) (call : Call) :
    (collector.current call).state =
      collector.state?.getD ⟨call.policy?.getD collector.defaultPolicy, [], []⟩ := by
  rw [current, state?]
  cases collector.collected <;> rfl

theorem Alike.current (alike : Alike first second) (call : Call) :
    (first.current call).state = (second.current call).state := by
  rw [current_state, current_state, alike.state, alike.policy]

theorem Alike.answer (alike : Alike first second) (call : Call) :
    first.answer call = second.answer call := by
  rw [Collector.answer, Collector.answer, alike.refuses call, alike.unit]
  split
  · rfl
  · dsimp only
    rw [alike.current call]

theorem Alike.after (alike : Alike first second) (call : Call) :
    Alike (first.after call) (second.after call) := by
  rw [Collector.after, Collector.after, alike.refuses call]
  split
  · exact alike
  · exact ⟨alike.unit, alike.policy, by simp [state?, alike.current call]⟩

theorem Alike.foldl (alike : Alike first second) (calls : List Call) :
    Alike (calls.foldl Collector.after first) (calls.foldl Collector.after second) := by
  induction calls generalizing first second with
  | nil => exact alike
  | cons call rest ih => exact ih (alike.after call)

def Call.fragment? : Call → Option String
  | .fragment text => some text
  | .dependency package => some ("extern crate " ++
      String.ofList (package.name.toList.map fun c => if c = '-' then '_' else c) ++ ";")
  | .ensure _ | .setPolicy _ | .query _ => none

def Call.dependency? : Call → Option Dependency
  | .dependency package => some package
  | _ => none

theorem Call.nothing_of_policy (call : Call) (brings : call.policy?.isSome = true) :
    call.fragment? = none ∧ call.dependency? = none := by
  cases call <;> simp_all [policy?, fragment?, dependency?]

/-- What a new collector is after calls. Only the first call counts for the policy and schedules
the hook. -/
def recorded (start : Collector ρ) : List Call → Collector ρ
  | [] => start
  | first :: rest =>
    { start with
      collected := some
        ({ policy := first.policy?.getD start.defaultPolicy
           fragments := (first :: rest).filterMap Call.fragment?
           dependencies := (first :: rest).filterMap Call.dependency? },
          start.schedule start.unit)
      schedulings := start.schedulings + 1 }

variable {start : Collector ρ}

theorem filterMap_concat (read : Call → Option α) (calls : List Call) (call : Call) :
    (calls ++ [call]).filterMap read = calls.filterMap read ++ (read call).toList := by
  cases added : read call <;> simp [List.filterMap_append, added]

theorem after_new (new : start.collected = none) (call : Call) :
    start.after call = start.recorded [call] := by
  cases call <;> simp [after, refuses, current, new, recorded, Call.extend, Call.fragment?,
    Call.dependency?, declaration, declaredName]

theorem after_recorded (new : start.collected = none) (calls : List Call) (call : Call) :
    (start.recorded calls).after call = start.recorded (calls ++ [call]) := by
  cases calls with
  | nil => exact after_new new call
  | cons first rest =>
    rw [List.cons_append, recorded, recorded, ← List.cons_append, filterMap_concat,
      filterMap_concat, after]
    by_cases late : call.policy?.isSome = true
    · obtain ⟨noFragment, noDependency⟩ := call.nothing_of_policy late
      simp [refuses, late, noFragment, noDependency]
    · cases call <;>
        simp_all [refuses, current, Call.extend, Call.fragment?, Call.dependency?, declaration,
          declaredName]

theorem foldl_after (new : start.collected = none) (calls : List Call) :
    calls.foldl after start = start.recorded calls := by
  induction calls using List.reverseRecOn with
  | nil => rfl
  | append_singleton calls call ih =>
    rw [List.foldl_append, ih]
    exact after_recorded new calls call

/-- A collector holds what was gathered by the calls on it, with the hook that was scheduled
by the first of them. -/
structure Gathered (start collector : Collector ρ) (calls : List Call) : Prop where
  unit : collector.unit = start.unit
  schedule : collector.schedule = start.schedule
  empty : collector.collected = none →
    calls.filterMap Call.fragment? = [] ∧ calls.filterMap Call.dependency? = []
  state : ∀ state hook, collector.collected = some (state, hook) →
    hook = start.schedule start.unit ∧
      state.fragments = calls.filterMap Call.fragment? ∧
      state.dependencies = calls.filterMap Call.dependency?

theorem gathered_foldl (start : Collector ρ) (new : start.collected = none) (calls : List Call) :
    Gathered start (calls.foldl Collector.after start) calls := by
  rw [foldl_after new]
  cases calls with
  | nil => exact ⟨rfl, rfl, fun _ => ⟨rfl, rfl⟩, fun _ _ held => nomatch new.symm.trans held⟩
  | cons first rest =>
    refine ⟨rfl, rfl, nofun, fun state hook held => ?_⟩
    obtain ⟨rfl, rfl⟩ := Prod.mk.inj (Option.some.inj held)
    exact ⟨rfl, rfl, rfl⟩

end Collector

end FragmentBuild
