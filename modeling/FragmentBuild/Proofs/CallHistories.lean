import FragmentBuild.Proofs.Collectors
import FragmentBuild.Proofs.Finishing

/-! A collector is its history. What any calls make of a new collector can be read off the calls:
the first one creates the state, and every other one adds to it or changes nothing. -/
namespace FragmentBuild

theorem declaration_eq (package : String) :
    declaration package =
      "extern crate " ++ package.map (fun c => if c = '-' then '_' else c) ++ ";" := by
  rw [declaration, declaredName, ← String.toList_map, String.ofList_toList]

namespace Collector

variable {start : Collector ρ}

theorem declarations_sublist (calls : List Call) :
    ((calls.filterMap Call.dependency?).map fun package => declaration package.name).Sublist
      (calls.filterMap Call.fragment?) := by
  induction calls with
  | nil => exact .slnil
  | cons call rest ih =>
    cases call with
    | dependency package => exact ih.cons_cons _
    | fragment text => exact ih.cons _
    | _ => exact ih

theorem of_answer_error {collector : Collector ρ} {call : Call} {failure : Failure}
    (failed : collector.answer call = .error failure) :
    collector.refuses call = true ∨ ∃ type, call = .query type := by
  by_cases late : collector.refuses call = true
  · exact .inl late
  · rw [answer, if_neg late] at failed
    cases call with
    | query type => exact .inr ⟨type, rfl⟩
    | _ => cases failed

/-- A collector has a state if and only if it was called. The state holds what the calls have
brought, each in their order; later calls only add to it, and calls that fail add nothing. -/
theorem holds_what_calls_brought (start : Collector ρ) (new : start.collected = none)
    (calls : List Call) :
    ((calls.foldl after start).state?.isSome = true ↔ calls ≠ []) ∧
      (∀ package, (Call.dependency package).fragment? = some ("extern crate " ++
        package.name.map (fun c => if c = '-' then '_' else c) ++ ";")) ∧
      ∀ state, (calls.foldl after start).state? = some state →
        state.fragments = calls.filterMap Call.fragment? ∧
        state.dependencies = calls.filterMap Call.dependency? ∧
        (state.dependencies.map fun package => declaration package.name).Sublist
          state.fragments ∧
        (∀ more, ∃ later, ((calls ++ more).foldl after start).state? = some later ∧
          state.fragments <+: later.fragments ∧ state.dependencies <+: later.dependencies) ∧
        ∀ call failure, (calls.foldl after start).answer call = .error failure →
          ((calls ++ [call]).foldl after start).state? = some state := by
  rw [foldl_after new]
  refine ⟨?_, fun package => ?_, fun state held => ?_⟩
  · cases calls <;> simp [recorded, state?, new]
  · exact congrArg some (declaration_eq package.name)
  · cases calls with
    | nil => simp [recorded, state?, new] at held
    | cons first rest =>
      obtain rfl := Option.some.inj held
      refine ⟨rfl, rfl, declarations_sublist _, fun more => ?_, fun call failure failed => ?_⟩
      · rw [foldl_after new]
        refine ⟨_, rfl, ?_, ?_⟩
        · exact ⟨more.filterMap Call.fragment?, List.filterMap_append.symm⟩
        · exact ⟨more.filterMap Call.dependency?, List.filterMap_append.symm⟩
      · rw [foldl_after new, ← after_recorded new, after]
        rcases of_answer_error failed with late | ⟨type, rfl⟩
        · rw [if_pos late]
          rfl
        · rfl

/-- A new collector, with a hook that tells what it is run on. -/
def telling : UnitCollector where
  unit := "u"
  defaultPolicy := .basic
  schedule := fun scheduled unit state =>
    pure ⟨scheduled ++ "/" ++ unit ++ "/" ++ toString state.fragments.length⟩

/-- The calls of a unit that asks for a type and is then given a policy too late. -/
def Call.untimely : List Call :=
  [.query (.parse "Vec<u8>"), .dependency ⟨"rand-core", "0.6"⟩, .setPolicy .empty,
    .fragment "fn f() {}"]

/-- The two calls that fail leave nothing behind. -/
theorem holds_what_calls_brought_untimely :
    ∃ state, (Call.untimely.foldl after telling).state? = some state ∧
      state.fragments = ["extern crate rand_core;", "fn f() {}"] ∧
      state.dependencies = [⟨"rand-core", "0.6"⟩] ∧
      ((Call.untimely ++ [Call.setPolicy .empty]).foldl after
        telling).state? = some state := by
  obtain ⟨called, -, holds⟩ :=
    holds_what_calls_brought telling rfl Call.untimely
  obtain ⟨state, held⟩ := Option.isSome_iff_exists.mp (called.mpr (by simp [Call.untimely]))
  obtain ⟨fragments, dependencies, -, -, unchanged⟩ := holds state held
  exact ⟨state, held, fragments.trans (by decide +kernel), dependencies.trans (by decide),
    unchanged _ (.policyAlreadySet "u") (by decide +kernel)⟩

/-- The policy of a unit after calls: the first one may bring it. -/
def policyInForce (start : Collector ρ) (calls : List Call) : Policy :=
  (calls.head?.bind Call.policy?).getD start.defaultPolicy

theorem current_recorded (new : start.collected = none) (calls : List Call) (call : Call)
    (brings : call.policy? = none) :
    ((start.recorded calls).current call).state.policy = start.policyInForce calls := by
  cases calls <;> simp [recorded, current, new, policyInForce, brings]

theorem refuses_recorded (new : start.collected = none) (calls : List Call) (call : Call) :
    (start.recorded calls).refuses call = true ↔ call.policy?.isSome = true ∧ calls ≠ [] := by
  cases calls <;> simp [recorded, refuses, new]

theorem answer_query_recorded (new : start.collected = none) (calls : List Call)
    (type : TypeExpr) :
    (start.recorded calls).answer (.query type) =
      match (start.policyInForce calls).lookup type with
      | some host => .ok (.host host)
      | none => .error (.unmappedType type) := by
  have policy := current_recorded new calls (.query type) rfl
  have accepted : ¬ (start.recorded calls).refuses (.query type) = true := by
    simp [refuses, Call.policy?]
  cases found : (start.policyInForce calls).lookup type with
  | some host => simp [answer, accepted, policy, found]
  | none => simp [answer, accepted, policy, found]

theorem answer_policyAlreadySet_iff (collector : Collector ρ) (call : Call) :
    collector.answer call = .error (.policyAlreadySet collector.unit) ↔
      collector.refuses call = true := by
  by_cases late : collector.refuses call = true
  · simp [answer, late]
  · rw [answer, if_neg late]
    cases call with
    | query type =>
      dsimp only
      cases Policy.lookup _ type <;> simp [late]
    | _ => simp [late]

end Collector

namespace Collector

/-- The first call on a collector fixes the policy and schedules the hook, whichever call it is.
After it exactly the calls that bring a policy are refused, and these change nothing. Types are
asked for under the policy in force, and finishing the unit runs the scheduled hook once on the
final state, or nothing if there was no call. -/
theorem first_call_fixes_policy_and_hook (start : UnitCollector) (new : start.collected = none)
    (calls : List Call) (reached : UnitCollector) (came : calls.foldl after start = reached) :
    (∀ state, reached.state? = some state → state.policy = start.policyInForce calls) ∧
      (∀ more, calls ≠ [] → start.policyInForce (calls ++ more) = start.policyInForce calls) ∧
      (∀ call, reached.answer call = .error (.policyAlreadySet start.unit) ↔
        call.policy?.isSome = true ∧ calls ≠ []) ∧
      (∀ call, reached.answer call = .error (.policyAlreadySet start.unit) →
        reached.after call = reached) ∧
      reached.schedulings = start.schedulings + (if calls = [] then 0 else 1) ∧
      (∀ type, reached.answer (.query type) =
        match (start.policyInForce calls).lookup type with
        | some host => .ok (.host host)
        | none => .error (.unmappedType type)) ∧
      ∀ (compilation : Compilation) (world : World),
        (calls = [] → ∃ events, world.exec (compilation.finishUnit reached) =
          (.ok none, { world with events })) ∧
        (calls ≠ [] → ∃ state events, reached.state? = some state ∧
          world.exec (compilation.finishUnit reached) =
            ((({ world with events } : World).exec
                (start.schedule start.unit start.unit state)).1.map some,
              (({ world with events } : World).exec
                (start.schedule start.unit start.unit state)).2)) := by
  obtain rfl := (foldl_after new calls).symm.trans came
  have unit : (start.recorded calls).unit = start.unit := by cases calls <;> rfl
  have late (call : Call) : (start.recorded calls).answer call =
      .error (.policyAlreadySet start.unit) ↔ (start.recorded calls).refuses call = true := by
    rw [← unit]
    exact answer_policyAlreadySet_iff _ call
  refine ⟨fun state held => ?_, fun more called => ?_, fun call => ?_, fun call refused => ?_, ?_,
    answer_query_recorded new calls, fun compilation world => ⟨?_, ?_⟩⟩
  · cases calls with
    | nil => simp [recorded, state?, new] at held
    | cons first rest =>
      obtain rfl := Option.some.inj held
      rfl
  · cases calls with
    | nil => exact absurd rfl called
    | cons first rest => rfl
  · rw [late, refuses_recorded new]
  · rw [after, if_pos ((late call).mp refused)]
  · cases calls <;> rfl
  · rintro rfl
    obtain ⟨events, ended⟩ := compilation.exec_finishUnit world (start.recorded [])
    rw [recorded, new] at ended
    exact ⟨events, ended⟩
  · intro called
    obtain ⟨events, ended⟩ := compilation.exec_finishUnit world (start.recorded calls)
    cases calls with
    | nil => exact absurd rfl called
    | cons first rest => exact ⟨_, events, rfl, ended⟩

/-- The query that fails is the first call: it schedules the hook and leaves the default policy in
force, and a policy that is given later is refused. -/
theorem first_call_fixes_policy_and_hook_untimely :
    ∃ reached, Call.untimely.foldl after telling = reached ∧
      reached.after (.setPolicy .empty) = reached ∧ reached.schedulings = 1 ∧
      reached.answer (.query (.parse "i32")) = .ok (.host ⟨"int32_t"⟩) ∧
      ∀ (compilation : Compilation) (world : World), ∃ events,
        world.exec (compilation.finishUnit reached) =
          (.ok (some ⟨"u/u/2"⟩), { world with events }) := by
  obtain ⟨-, -, late, unchanged, once, asked, finished⟩ :=
    first_call_fixes_policy_and_hook telling rfl Call.untimely _ rfl
  have called : Call.untimely ≠ [] := by simp [Call.untimely]
  refine ⟨_, rfl, unchanged _ ((late _).mpr ⟨rfl, called⟩), once, ?_, fun compilation world => ?_⟩
  · rw [asked, show (telling.policyInForce Call.untimely).lookup (.parse "i32") =
      some ⟨"int32_t"⟩ by decide +kernel]
  · obtain ⟨state, events, held, ended⟩ := (finished compilation world).2 called
    obtain rfl := Option.some.inj held
    exact ⟨events, ended.trans rfl⟩

end Collector

end FragmentBuild
