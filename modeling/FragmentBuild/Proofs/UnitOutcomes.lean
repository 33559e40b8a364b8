import FragmentBuild.Proofs.StepEndings
import FragmentBuild.Proofs.UnitBuilds

/-! What is left of units that were built one after the other. Each archive is printed and linked,
each in its turn, and a unit whose name was taken ends it all before anything is done for it. -/
namespace FragmentBuild

def Request.IsSilent : Request → Prop
  | .print _ => False
  | _ => True

theorem Request.IsWork.silent {request : Request} (isWork : request.IsWork) :
    request.IsSilent := by
  cases request <;> trivial

theorem Program.Asks.printed {program : Program α} (asks : program.Asks Request.IsSilent)
    (world : World) : (world.run program).2.printed = world.printed := by
  have step (world : World) (request : Request) (silent : request.IsSilent) :
      (world.answer request).2.printed = world.printed := by
    cases request with
    | print text => exact silent.elim
    | _ => rfl
  induction program generalizing world with
  | done value => rfl
  | ask request next ih => exact (ih _ (asks.2 _) _).trans (step world request asks.1)

theorem Compilation.asks_finishing (settings : Settings) (builder : Builder) (unit : String)
    (state : UnitState) : (finishing settings builder unit state).Asks Request.IsSilent := by
  have reports (event : Event) : (builder.report event).Asks Request.IsSilent :=
    .lift (.report _ _ trivial)
  rw [finishing_eq]
  refine .bind ((asks_building settings builder unit state).mono fun _ => Request.IsWork.silent)
    fun archive => ?_
  refine .bind (.lift (.request _ trivial)) fun _ => ?_
  exact .bind (reports _) fun _ => .bind (reports _) fun _ => .pure _ _

namespace World

variable {world after : World} {run next : Run} {unit : UnitDescription}
  {result : Except Failure (Option Path)}

/-- A unit is refused, or nothing is built for it since nothing describes it, or it is built. -/
theorem Comes.outcome (comes : Comes world run unit result next after) :
    (run.compilation.opened.contains unit.name = true ∧
        result = .error (.unitAlreadyOpen unit.name) ∧ after = world) ∨
      (unit.calls = [] ∧ result = .ok none ∧ ∃ events, after = { world with events }) ∨
      unit.calls ≠ [] ∧ ∃ events state built, result = Except.map some built ∧
        state.dependencies = unit.dependencies ∧
        ({ world with events } : World).exec (Compilation.finishing run.compilation.settings
          run.compilation.builder unit.name state) = (built, after) := by
  cases comes with
  | again taken => exact .inl ⟨taken, rfl, rfl⟩
  | new free finished =>
    rename_i first
    refine .inr ?_
    obtain ⟨events, finishes⟩ := run.compilation.exec_finishUnit { world with events := first }
      ((run.compilation.collectorOf unit.name).recorded unit.calls)
    rw [finished] at finishes
    cases described : unit.calls with
    | nil =>
      rw [described] at finishes
      obtain ⟨rfl, rfl⟩ := Prod.mk.inj finishes
      exact .inl ⟨rfl, rfl, events, rfl⟩
    | cons first rest =>
      rw [described] at finishes
      obtain ⟨rfl, rfl⟩ := Prod.mk.inj finishes
      refine .inr ⟨List.cons_ne_nil _ _, events, _, _, rfl, ?_, rfl⟩
      rw [← described]
      exact unit.dependencies_calls

/-- Building a unit prints nothing yet and links the archive that it comes to, if any. -/
theorem Comes.records (comes : Comes world run unit result next after) :
    after.printed = world.printed ∧
      after.plan = (Run.Reply.ofFinish result).archive?.toList.foldl LinkPlan.register
        world.plan := by
  rcases comes.outcome with ⟨-, rfl, rfl⟩ | ⟨-, rfl, events, rfl⟩ |
    ⟨-, events, state, built, rfl, -, finished⟩
  · exact ⟨rfl, rfl⟩
  · exact ⟨rfl, rfl⟩
  · have quiet := (Compilation.asks_finishing run.compilation.settings run.compilation.builder
      unit.name state).printed { world with events }
    obtain ⟨-, linked⟩ := Run.ends_finishing (runs_run .refusals { world with events }
      (Compilation.finishing run.compilation.settings run.compilation.builder unit.name state).run)
    rw [exec] at finished
    rw [finished] at quiet linked
    refine ⟨quiet, linked.trans ?_⟩
    cases built <;> rfl

theorem Comes.nothing_iff (comes : Comes world run unit (.ok archive) next after) :
    archive = none ↔ unit.calls = [] := by
  rcases comes.outcome with ⟨-, ⟨⟩, -⟩ | ⟨none, same, -⟩ | ⟨some, events, state, built, same, -⟩
  · cases same
    exact ⟨fun _ => none, fun _ => rfl⟩
  · cases built with
    | error failure => cases same
    | ok path =>
      cases same
      exact ⟨nofun, fun none => absurd none some⟩

/-- A unit calls one tool at most, and none if nothing describes it. -/
theorem Comes.calls (comes : Comes world run unit result next after) :
    after.calls.length ≤ world.calls.length + 1 ∧
      (unit.calls = [] → after.calls = world.calls) := by
  rcases comes.outcome with ⟨-, -, rfl⟩ | ⟨-, -, events, rfl⟩ |
    ⟨some, events, state, built, -, -, finished⟩
  · exact ⟨Nat.le_succ _, fun _ => rfl⟩
  · exact ⟨Nat.le_succ _, fun _ => rfl⟩
  · refine ⟨?_, fun none => absurd none some⟩
    obtain ⟨-, same⟩ | ⟨workRoot, shown, -, made, building, ends⟩ :=
      finishing_cases _ _ _ _ finished
    · rw [same.calls]
      exact Nat.le_succ _
    have same : after.calls = made.calls := by
      obtain ⟨failure, -, rfl⟩ | ⟨archive, later, -, rfl⟩ := ends <;> rfl
    rw [same]
    obtain quiet | ⟨invocation, machine, called⟩ := build_called _ _ building
    · rw [quiet.calls]
      exact Nat.le_succ _
    · rw [called.calls, List.length_append]
      exact Nat.le_refl _

theorem Comes.opened (comes : Comes world run unit (.ok archive) next after) :
    unit.name ∉ run.compilation.opened ∧
      next.compilation.opened = run.compilation.opened ++ [unit.name] := by
  cases comes with
  | new free finished => exact ⟨by simpa using free, rfl⟩

theorem Comes.refused (comes : Comes world run unit result next after)
    (taken : unit.name ∈ run.compilation.opened) :
    result = .error (.unitAlreadyOpen unit.name) ∧ after = world := by
  cases comes with
  | again taken => exact ⟨rfl, rfl⟩
  | new free finished => simp [taken] at free

end World

namespace Run.Builds

variable {run : Run} {world after : World} {units : List UnitDescription}
  {archives : List (Option Path)} {verdict : Option Failure}

/-- Each archive is printed on a line of its own, and no other text. -/
theorem printed (builds : Builds run world units archives verdict after)
    (idle : run.collectors = []) :
    after.printed = world.printed ++ String.join (archives.map announced) := by
  induction builds with
  | done => exact String.append_empty.symm
  | finished steps told rest ih =>
    have comes : World.Comes _ _ _ (.ok _) _ _ := World.comes_of_reply idle steps told rfl
    rw [ih (comes.idle idle), comes.records.1, List.map_cons, String.join_cons,
      String.append_assoc]
  | failed steps told =>
    have comes : World.Comes _ _ _ (.error _) _ _ := World.comes_of_reply idle steps told rfl
    exact comes.records.1.trans String.append_empty.symm

theorem plan (builds : Builds run world units archives verdict after)
    (idle : run.collectors = []) :
    after.plan = (archives.filterMap id).foldl LinkPlan.register world.plan := by
  induction builds with
  | done => rfl
  | finished steps told rest ih =>
    have comes : World.Comes _ _ _ (.ok _) _ _ := World.comes_of_reply idle steps told rfl
    rw [ih (comes.idle idle), comes.records.2, List.filterMap_cons]
    cases ‹Option Path› <;> rfl
  | failed steps told =>
    have comes : World.Comes _ _ _ (.error _) _ _ := World.comes_of_reply idle steps told rfl
    exact comes.records.2

/-- A tool is called at most once for each archive, and once more for a unit that fails. -/
theorem calls (builds : Builds run world units archives verdict after)
    (idle : run.collectors = []) :
    after.calls.length ≤
      world.calls.length + (archives.filterMap id).length + verdict.toList.length := by
  induction builds with
  | done => exact Nat.le_refl _
  | finished steps told rest ih =>
    have comes : World.Comes _ _ _ (.ok _) _ _ := World.comes_of_reply idle steps told rfl
    have later := ih (comes.idle idle)
    obtain ⟨once, never⟩ := comes.calls
    cases ‹Option Path› with
    | none =>
      rw [never (comes.nothing_iff.mp rfl)] at later
      exact later
    | some path =>
      simp only [List.filterMap_cons, id, List.length_cons] at later ⊢
      omega
  | failed steps told =>
    have comes : World.Comes _ _ _ (.error _) _ _ := World.comes_of_reply idle steps told rfl
    exact comes.calls.1

theorem nothing_iff (builds : Builds run world units archives verdict after)
    (idle : run.collectors = []) :
    ∀ pair ∈ units.zip archives, pair.2 = none ↔ pair.1.calls = [] := by
  induction builds with
  | done => exact List.forall_mem_nil _
  | finished steps told rest ih =>
    have comes : World.Comes _ _ _ (.ok _) _ _ := World.comes_of_reply idle steps told rfl
    exact List.forall_mem_cons.mpr ⟨comes.nothing_iff, ih (comes.idle idle)⟩
  | failed steps told => exact List.forall_mem_nil _

/-- Units that are finished have names of their own. -/
theorem names (builds : Builds run world units archives verdict after)
    (idle : run.collectors = []) (distinct : run.compilation.opened.Nodup) :
    (run.compilation.opened ++ (units.take archives.length).map (·.name)).Nodup := by
  induction builds with
  | done => rwa [List.length_nil, List.take_zero, List.map_nil, List.append_nil]
  | finished steps told rest ih =>
    have comes : World.Comes _ _ _ (.ok _) _ _ := World.comes_of_reply idle steps told rfl
    obtain ⟨free, opened⟩ := comes.opened
    rw [opened] at ih
    have later := ih (comes.idle idle)
      (List.nodup_append.mpr ⟨distinct, List.pairwise_singleton _ _, fun name opened other own same =>
        free (List.mem_singleton.mp own ▸ same ▸ opened)⟩)
    rwa [List.append_assoc] at later
  | failed steps told => rwa [List.length_nil, List.take_zero, List.map_nil, List.append_nil]

end Run.Builds

end FragmentBuild
