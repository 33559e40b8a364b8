import FragmentBuild.Commands
import FragmentBuild.Proofs.CallHistories
import FragmentBuild.Proofs.Histories

/-! Commands run step by step, up to the first problem. Reading files, opening a unit and calling
its collector change nothing of the world but what has been reported. -/
namespace FragmentBuild

namespace World

/-- Runs the work of a command to its value or its problem. -/
def attempt (world : World) (work : Work α) : Except Problem α × World := world.run work.run

@[simp] theorem attempt_pure (world : World) (value : α) :
    world.attempt (pure value : Work α) = (.ok value, world) := rfl

theorem attempt_bind (world : World) (work : Work α) (next : α → Work β) :
    world.attempt (work >>= next) =
      match world.attempt work with
      | (.ok value, after) => after.attempt (next value)
      | (.error problem, after) => (.error problem, after) := by
  have unfolded : (work >>= next).run =
      work.run >>= ExceptT.bindCont (fun value => next value) := rfl
  rw [attempt, unfolded, run_bind, attempt]
  rcases world.run work.run with ⟨_ | value, after⟩ <;> rfl

theorem attempt_lift (world : World) (program : Program α) :
    world.attempt (ExceptT.lift program) = (.ok (world.run program).1, (world.run program).2) := by
  have unfolded : (ExceptT.lift program : Work α).run =
      program >>= fun value => pure (.ok value) := rfl
  rw [attempt, unfolded, run_bind]
  rfl

theorem attempt_ofLoad (world : World) (program : Program (Except LoadError α)) :
    world.attempt (Work.ofLoad program) =
      ((world.run program).1.mapError .load, (world.run program).2) := by
  rw [attempt, Work.ofLoad, ExceptT.run_mk, run_bind]
  rfl

theorem attempt_ofTask (world : World) (task : Task α) :
    world.attempt (Work.ofTask task) =
      ((world.exec task).1.mapError .failure, (world.exec task).2) := by
  rw [attempt, Work.ofTask, ExceptT.run_mk, run_bind]
  rfl

theorem attempt_print (world : World) (text : String) :
    world.attempt (Work.print text) = (.ok (), { world with printed := world.printed ++ text }) :=
  attempt_lift world _

/-! ### Reading files -/

theorem run_load (world : World) (subject : Subject) (read : String → Option α) (path : Path) :
    (world.run (load subject read path)).2 = world := by
  rw [load, run_bind, run_request]
  dsimp only [answer]
  split
  · rfl
  · split <;> rfl

/-- What a file says of a unit. -/
def described (world : World) (path : Path) : Except LoadError UnitDescription :=
  (world.run (loadUnit path)).1

theorem attempt_loadUnit (world : World) (path : Path) :
    world.attempt (Work.ofLoad (loadUnit path)) =
      ((world.described path).mapError .load, world) := by
  rw [attempt_ofLoad, loadUnit, run_load]
  rfl

theorem described_of_read {world : World} {path : Path} {text : String}
    (holds : world.machine.read path = .ok text.toUTF8) :
    world.described path = parsed .unit path UnitDescription.parse? text := by
  have valid : text.toUTF8.IsValidUTF8 := text.isValidUTF8
  rw [described, loadUnit, load, run_bind, run_request]
  dsimp only [answer]
  rw [holds]
  dsimp only
  rw [String.fromUTF8?, dif_pos valid]
  rfl

/-! ### Opening a unit and calling its collector -/

theorem attempt_callAll (world : World) (compilation : Compilation) (collector : UnitCollector)
    (calls : List Collector.Call) :
    ∃ events, world.attempt (callAll compilation collector calls) =
      ((collector.afterAll calls).1.mapError .failure |>.map fun _ => (collector.afterAll calls).2,
        { world with events }) := by
  induction calls generalizing world collector with
  | nil => exact ⟨world.events, rfl⟩
  | cons call rest ih =>
    obtain ⟨called, answered⟩ := run_call world compilation collector call
    rw [callAll, attempt_bind, attempt_lift, answered]
    dsimp only
    rw [attempt_bind, Collector.afterAll]
    cases collector.answer call with
    | error failure => exact ⟨called, rfl⟩
    | ok answer => exact ih _ _

theorem run_compilation_start (world : World) (settings : Settings) (policy : Policy) :
    ∃ scratch, world.run (Compilation.start settings policy) =
      ({ settings, defaultPolicy := policy, builder := ⟨settings, scratch⟩ }, world) := by
  have rooted : (world.run (Scratch.ofToolchain settings.toolchain)).2 = world := by
    rw [Scratch.ofToolchain]
    split <;> rfl
  refine ⟨(world.run (Scratch.ofToolchain settings.toolchain)).1, ?_⟩
  rw [Compilation.start, run_bind, Builder.ofSettings, run_bind, rooted]
  rfl

theorem attempt_openUnit (world : World) (compilation : Compilation) (unit : String) :
    ∃ events, world.attempt (openUnit compilation unit) =
      (if compilation.opened.contains unit then .error (.failure (.unitAlreadyOpen unit))
        else .ok (compilation.collectorOf unit,
          { compilation with opened := compilation.opened ++ [unit] }),
        { world with events }) := by
  obtain ⟨events, opened⟩ := run_openUnit world compilation unit
  refine ⟨events, ?_⟩
  rw [openUnit, attempt_ofTask, exec, ExceptT.run_mk, opened]
  split <;> rfl

end World

namespace Collector

def Call.Adds : Call → Prop
  | .fragment _ | .dependency _ => True
  | .ensure _ | .setPolicy _ | .query _ => False

theorem Call.Adds.policy? {call : Call} (adds : call.Adds) : call.policy? = none := by
  cases call with
  | fragment text => rfl
  | dependency package => rfl
  | _ => cases adds

theorem answer_of_adds (collector : Collector ρ) {call : Call} (adds : call.Adds) :
    collector.answer call = .ok .done := by
  rw [answer, if_neg (by simp [refuses, adds.policy?])]
  cases call with
  | fragment text => rfl
  | dependency package => rfl
  | _ => cases adds

theorem afterAll_of_adds (collector : Collector ρ) {calls : List Call}
    (adds : ∀ call ∈ calls, call.Adds) :
    collector.afterAll calls = (.ok (), calls.foldl after collector) := by
  induction calls generalizing collector with
  | nil => rfl
  | cons call rest ih =>
    obtain ⟨own, others⟩ := List.forall_mem_cons.mp adds
    rw [afterAll, answer_of_adds collector own]
    exact ih _ others

theorem afterAll_policy (start : Collector ρ) (new : start.collected = none)
    (policy : Option Policy) {added : List Call} (adds : ∀ call ∈ added, call.Adds) :
    start.afterAll ((policy.map Call.setPolicy).toList ++ added) =
      (.ok (), ((policy.map Call.setPolicy).toList ++ added).foldl after start) := by
  cases policy with
  | none => exact afterAll_of_adds start adds
  | some policy =>
    have accepted : start.answer (.setPolicy policy) = .ok .done := by
      rw [answer, if_neg (by simp [refuses, new])]
    change start.afterAll (.setPolicy policy :: added) = _
    rw [afterAll, accepted]
    exact afterAll_of_adds _ adds

theorem policyInForce_policy (start : Collector ρ) (policy : Option Policy) {added : List Call}
    (adds : ∀ call ∈ added, call.Adds) :
    start.policyInForce ((policy.map Call.setPolicy).toList ++ added) =
      policy.getD start.defaultPolicy := by
  cases policy with
  | some policy => rfl
  | none =>
    cases added with
    | nil => rfl
    | cons call rest =>
      have brings := (List.forall_mem_cons.mp adds).1.policy?
      simp [policyInForce, brings]

end Collector

namespace UnitDescription

theorem calls_eq (unit : UnitDescription) :
    ∃ added, unit.calls = (unit.policy?.map Collector.Call.setPolicy).toList ++ added ∧
      ∀ call ∈ added, call.Adds := by
  refine ⟨unit.dependencies.map .dependency ++ unit.fragments.map .fragment,
    List.append_assoc .., fun call member => ?_⟩
  rcases List.mem_append.mp member with declared | written
  · obtain ⟨package, -, rfl⟩ := List.mem_map.mp declared
    trivial
  · obtain ⟨text, -, rfl⟩ := List.mem_map.mp written
    trivial

theorem dependencies_calls (unit : UnitDescription) :
    unit.calls.filterMap Collector.Call.dependency? = unit.dependencies := by
  rw [calls, List.filterMap_append, List.filterMap_append, List.filterMap_map, List.filterMap_map]
  have declared : (Collector.Call.dependency? ∘ Collector.Call.dependency) = some := rfl
  have written : (Collector.Call.dependency? ∘ Collector.Call.fragment) = fun _ => none := rfl
  rw [declared, written]
  cases unit.policy? <;> simp [List.filterMap_cons, Collector.Call.dependency?]

end UnitDescription

theorem Collector.afterAll_calls (start : Collector ρ) (new : start.collected = none)
    (unit : UnitDescription) :
    start.afterAll unit.calls = (.ok (), start.recorded unit.calls) := by
  obtain ⟨added, calls, adds⟩ := unit.calls_eq
  rw [calls, ← foldl_after new]
  exact afterAll_policy start new unit.policy? adds

end FragmentBuild
