import FragmentBuild.ScriptedTool
import FragmentBuild.Proofs.Histories
import FragmentBuild.Proofs.MutedPrograms
import Mathlib.Data.List.Basic

/-! Logs of a session. What a session does, step by step, does not depend on how much of it is
reported. Main statement: there is one sequence of events, and the log at any verbosity is what that
verbosity shows of it. -/
namespace FragmentBuild

def mapValues (form : α → β) (entries : List (κ × α)) : List (κ × β) :=
  entries.map fun entry => (entry.1, form entry.2)

theorem lookup_mapValues [BEq κ] [LawfulBEq κ] (form : α → β) (entries : List (κ × α)) (key : κ) :
    (mapValues form entries).lookup key = (entries.lookup key).map form := by
  induction entries with
  | nil => rfl
  | cons entry rest ih =>
    obtain ⟨own, value⟩ := entry
    rw [mapValues, List.map_cons, List.lookup_cons, List.lookup_cons]
    cases same : key == own with
    | true => rfl
    | false => exact ih

theorem mapValues_setEntry [DecidableEq κ] (form : α → β) (entries : List (κ × α)) (key : κ)
    (value : α) :
    mapValues form (setEntry key value entries) =
      setEntry key (form value) (mapValues form entries) := by
  induction entries with
  | nil => rfl
  | cons entry rest ih =>
    by_cases same : entry.1 = key
    · simp [mapValues, setEntry, same]
    · simpa [mapValues, setEntry, same] using ih

theorem mapValues_filter (form : α → β) (entries : List (κ × α)) (keep : κ → Bool) :
    (mapValues form entries).filter (keep ·.1) = mapValues form (entries.filter (keep ·.1)) :=
  List.filter_map

namespace Collector

def withHook (plain : Collector Unit) (hook : Hook ρ) : Collector ρ where
  unit := plain.unit
  defaultPolicy := plain.defaultPolicy
  schedule := fun _ => hook
  collected := plain.collected.map fun (state, _) => (state, hook)
  schedulings := plain.schedulings

variable (plain : Collector Unit) (hook : Hook ρ) (call : Call)

@[simp] theorem isSome_collected_withHook :
    (plain.withHook hook).collected.isSome = plain.collected.isSome := by
  simp [withHook]

@[simp] theorem refuses_withHook : (plain.withHook hook).refuses call = plain.refuses call := by
  simp [refuses]

@[simp] theorem phase_withHook : (plain.withHook hook).phase = plain.phase := by
  simp [phase]

@[simp] theorem state?_withHook : (plain.withHook hook).state? = plain.state? := by
  simp [state?, withHook, Function.comp_def]

theorem current_withHook :
    (plain.withHook hook).current call =
      ⟨(plain.current call).state, hook, (plain.current call).schedulings⟩ := by
  cases collected : plain.collected <;> simp [current, withHook, collected]

@[simp] theorem after_withHook :
    (plain.withHook hook).after call = (plain.after call).withHook hook := by
  rw [after, after, refuses_withHook, current_withHook]
  split
  · rfl
  · rfl

@[simp] theorem answer_withHook : (plain.withHook hook).answer call = plain.answer call := by
  rw [answer, answer, refuses_withHook, current_withHook]
  rfl

@[simp] theorem events_withHook : (plain.withHook hook).events call = plain.events call := by
  simp [events, withHook]

@[simp] theorem closing_withHook : (plain.withHook hook).closing = plain.closing := by
  cases collected : plain.collected <;> simp [closing, withHook, collected]

theorem finish_withHook :
    (plain.withHook hook).finish = plain.state?.map (hook plain.unit) := by
  cases collected : plain.collected <;> simp [finish, withHook, state?, collected]

end Collector

namespace Run

/-- All of a run but how much it reports. -/
structure Draft where
  toolchain : Toolchain
  policy : Policy
  scratch : Scratch
  opened : List String := []
  collectors : List (String × Collector Unit) := []

namespace Draft

variable (draft : Draft) (verbosity : Verbosity)

def builder : Builder := ⟨⟨verbosity, draft.toolchain⟩, draft.scratch⟩

def hook : Hook (Task Path) :=
  Compilation.finishing ⟨verbosity, draft.toolchain⟩ (draft.builder verbosity)

def compilation : Compilation :=
  ⟨⟨verbosity, draft.toolchain⟩, draft.policy, draft.builder verbosity, draft.opened⟩

/-- The run that reports what a verbosity shows. -/
def heardAt : Run where
  compilation := draft.compilation verbosity
  collectors := mapValues (·.withHook (draft.hook verbosity)) draft.collectors

/-- What the steps make of a run, which does not depend on what they come to. -/
def after : Step → Draft
  | .openUnit unit =>
    if draft.opened.contains unit then draft
    else { draft with
      opened := draft.opened ++ [unit]
      collectors := setEntry unit (UnitView.plain unit draft.policy) draft.collectors }
  | .call unit call =>
    match draft.collectors.lookup unit with
    | none => draft
    | some collector =>
      { draft with collectors := setEntry unit (collector.after call) draft.collectors }
  | .drop unit => { draft with collectors := draft.collectors.filter (·.1 != unit) }
  | .finish unit =>
    match draft.collectors.lookup unit with
    | none => draft
    | some _ => { draft with collectors := draft.collectors.filter (·.1 != unit) }

theorem collector?_heardAt (unit : String) :
    (draft.heardAt verbosity).collector? unit =
      (draft.collectors.lookup unit).map (·.withHook (draft.hook verbosity)) := by
  rw [collector?]
  exact lookup_mapValues (·.withHook (draft.hook verbosity)) draft.collectors unit

theorem without_heardAt (unit : String) :
    (draft.heardAt verbosity).without unit = (draft.after (.drop unit)).heardAt verbosity := by
  have kept := mapValues_filter (·.withHook (draft.hook verbosity)) draft.collectors (· != unit)
  exact congrArg (Run.mk (draft.compilation verbosity)) kept

theorem setEntry_heardAt (unit : String) (plain : Collector Unit) :
    setEntry unit (plain.withHook (draft.hook verbosity)) (draft.heardAt verbosity).collectors =
      mapValues (·.withHook (draft.hook verbosity)) (setEntry unit plain draft.collectors) :=
  (mapValues_setEntry (·.withHook (draft.hook verbosity)) draft.collectors unit plain).symm

def Matches (verbosity : Verbosity) (loud muted : Reply × Run) : Prop :=
  loud.1 = muted.1 ∧ loud.2 = draft.heardAt .loud ∧ muted.2 = draft.heardAt verbosity

theorem mutes_openUnit (unit : String) :
    Program.Mutes verbosity ((draft.after (.openUnit unit)).Matches verbosity)
      ((draft.heardAt .loud).perform (.openUnit unit))
      ((draft.heardAt verbosity).perform (.openUnit unit)) := by
  rw [perform, perform, Compilation.openUnit, Compilation.openUnit, after]
  by_cases taken : draft.opened.contains unit = true
  · have refused (verbosity : Verbosity) :
        (draft.heardAt verbosity).compilation.opened.contains unit = true := taken
    rw [if_pos (refused .loud), if_pos (refused verbosity), if_pos taken]
    exact .done ⟨rfl, rfl, rfl⟩
  · have free (verbosity : Verbosity) :
        ¬ (draft.heardAt verbosity).compilation.opened.contains unit = true := taken
    have set (verbosity : Verbosity) := draft.setEntry_heardAt verbosity unit
      (UnitView.plain unit draft.policy)
    rw [if_neg (free .loud), if_neg (free verbosity), if_neg taken, bind_assoc, bind_assoc]
    refine (Program.Mutes.report _).bind_same fun _ => .done ⟨rfl, ?_, ?_⟩
    · exact congrArg _ (set .loud)
    · exact congrArg _ (set verbosity)

theorem mutes_compilation_call (plain : Collector Unit) (call : Collector.Call) :
    Program.Mutes verbosity (fun loud muted => loud.1 = muted.1 ∧
        loud.2 = (plain.after call).withHook (draft.hook .loud) ∧
        muted.2 = (plain.after call).withHook (draft.hook verbosity))
      ((draft.compilation .loud).call (plain.withHook (draft.hook .loud)) call)
      ((draft.compilation verbosity).call (plain.withHook (draft.hook verbosity)) call) := by
  simp only [Compilation.call, Collector.refuses_withHook, Collector.events_withHook,
    Collector.answer_withHook, Collector.after_withHook]
  split
  · exact (Program.Mutes.reportAll _).bind_same fun _ => .done ⟨rfl, rfl, rfl⟩
  · exact .done ⟨rfl, rfl, rfl⟩

theorem mutes_call (unit : String) (call : Collector.Call) :
    Program.Mutes verbosity ((draft.after (.call unit call)).Matches verbosity)
      ((draft.heardAt .loud).perform (.call unit call))
      ((draft.heardAt verbosity).perform (.call unit call)) := by
  rw [perform, perform, collector?_heardAt, collector?_heardAt, after]
  cases held : draft.collectors.lookup unit with
  | none => exact .done ⟨rfl, rfl, rfl⟩
  | some collector =>
    have set (verbosity : Verbosity) := draft.setEntry_heardAt verbosity unit
      (collector.after call)
    refine (draft.mutes_compilation_call verbosity collector call).bind ?_
    rintro ⟨answer, one⟩ ⟨answer', other⟩ ⟨rfl, rfl, rfl⟩
    cases answer with
    | ok answer => exact .done ⟨rfl, congrArg _ (set .loud), congrArg _ (set verbosity)⟩
    | error failure => exact .done ⟨rfl, congrArg _ (set .loud), congrArg _ (set verbosity)⟩

theorem mutes_hook (unit : String) (state : UnitState) :
    Task.Mutes verbosity (draft.hook .loud unit state) (draft.hook verbosity unit state) := by
  have reports (event : Event) : Task.Mutes verbosity ((draft.builder .loud).report event)
      ((draft.builder verbosity).report event) := (draft.builder verbosity).mutes_report event
  refine .bind (reports _) fun _ => ?_
  refine .bind (.of_asks (.orInaccessible _ (.request _ trivial))) fun workRoot => ?_
  refine .bind (reports _) fun _ => ?_
  refine .bind ((draft.builder verbosity).mutes_build _) fun archive => ?_
  refine .bind (.lift (.request _ trivial)) fun _ => ?_
  exact .bind (reports _) fun _ => .bind (reports _) fun _ => .pure _

theorem mutes_finishUnit (plain : Collector Unit) :
    Task.Mutes verbosity
      ((draft.compilation .loud).finishUnit (plain.withHook (draft.hook .loud)))
      ((draft.compilation verbosity).finishUnit (plain.withHook (draft.hook verbosity))) := by
  rw [Compilation.finishUnit, Compilation.finishUnit, Collector.finish_withHook,
    Collector.finish_withHook, Collector.closing_withHook, Collector.closing_withHook]
  refine .bind (.lift (.report _)) fun _ => ?_
  cases plain.state? with
  | none => exact .pure _
  | some state => exact .bind (draft.mutes_hook verbosity plain.unit state) fun _ => .pure _

theorem mutes_finish (unit : String) :
    Program.Mutes verbosity ((draft.after (.finish unit)).Matches verbosity)
      ((draft.heardAt .loud).perform (.finish unit))
      ((draft.heardAt verbosity).perform (.finish unit)) := by
  rw [perform, perform, collector?_heardAt, collector?_heardAt, after]
  cases held : draft.collectors.lookup unit with
  | none => exact .done ⟨rfl, rfl, rfl⟩
  | some collector =>
    have without (verbosity : Verbosity) := draft.without_heardAt verbosity unit
    refine Program.Mutes.bind_same (draft.mutes_finishUnit verbosity collector) fun result => ?_
    cases result with
    | ok archive => exact .done ⟨rfl, without .loud, without verbosity⟩
    | error failure => exact .done ⟨rfl, without .loud, without verbosity⟩

theorem mutes_perform (step : Step) :
    Program.Mutes verbosity ((draft.after step).Matches verbosity)
      ((draft.heardAt .loud).perform step) ((draft.heardAt verbosity).perform step) := by
  cases step with
  | openUnit unit => exact draft.mutes_openUnit verbosity unit
  | call unit call => exact draft.mutes_call verbosity unit call
  | drop unit =>
    refine .done ⟨?_, draft.without_heardAt .loud unit, draft.without_heardAt verbosity unit⟩
    dsimp only
    rw [collector?_heardAt, collector?_heardAt, Option.isSome_map, Option.isSome_map]
  | finish unit => exact draft.mutes_finish verbosity unit

def afterAll (draft : Draft) (steps : List Step) : Draft := steps.foldl after draft

end Draft

/-- A step of a session, with the tool that is there for it and what has happened to the machine
since the step before. -/
structure Visit where
  step : Step
  tool : Tool
  meanwhile : Machine → Machine

end Run

namespace World

open Run (Visit Draft)

variable {verbosity : Verbosity}

theorem answer_events (world : World) {request : Request} (unheard : request.IsUnheard)
    (events : List Event) :
    ({ world with events } : World).answer request =
        ((world.answer request).1, { (world.answer request).2 with events }) ∧
      (world.answer request).2.events = world.events := by
  cases request with
  | report event => exact unheard.elim
  | _ => exact ⟨rfl, rfl⟩

/-- The two programs leave the same world but for the events, of which the muted one leaves those
that are shown. -/
theorem run_mutes {related : α → β → Prop} {loud : Program α} {muted : Program β}
    (mutes : Program.Mutes verbosity related loud muted) (world : World) (events : List Event) :
    ∃ log, (world.run loud).2.events = world.events ++ log ∧
      related (world.run loud).1 (({ world with events } : World).run muted).1 ∧
      (({ world with events } : World).run muted).2 =
        { (world.run loud).2 with events := events ++ log.filter verbosity.shows } := by
  induction mutes generalizing world events with
  | done same => exact ⟨[], by simp [run], same, by simp [run]⟩
  | @asked request loud muted unheard _ ih =>
    obtain ⟨same, kept⟩ := world.answer_events unheard events
    obtain ⟨log, told, agrees, left⟩ := ih (world.answer request).1 (world.answer request).2 events
    rw [run, run, same]
    exact ⟨log, by rw [told, kept], agrees, left⟩
  | @shown event loud muted shows _ ih =>
    obtain ⟨log, told, agrees, left⟩ := ih { world with events := world.events ++ [event] }
      (events ++ [event])
    refine ⟨event :: log, ?_, agrees, ?_⟩
    · rw [run]
      exact told.trans (List.append_cons ..).symm
    · rw [run, run, List.filter_cons_of_pos shows, List.append_cons]
      exact left
  | @hidden event loud muted hides _ ih =>
    obtain ⟨log, told, agrees, left⟩ := ih { world with events := world.events ++ [event] } events
    refine ⟨event :: log, ?_, agrees, ?_⟩
    · rw [run]
      exact told.trans (List.append_cons ..).symm
    · rw [run, List.filter_cons_of_neg (by simp [hides])]
      exact left

def visited (world : World) (visit : Visit) : World :=
  { world with tool := visit.tool, machine := visit.meanwhile world.machine }

def follow (world : World) (run : Run) : List Visit → (List Run.Reply × Run) × World
  | [] => (([], run), world)
  | visit :: rest =>
    let taken := (world.visited visit).run (run.perform visit.step)
    let later := taken.2.follow taken.1.2 rest
    ((taken.1.1 :: later.1.1, later.1.2), later.2)

/-- A session from its start on. -/
def session (begun : World) (settings : Settings) (policy : Policy) (visits : List Visit) :
    (List Run.Reply × Run) × World :=
  let started := begun.run (Run.start settings policy)
  started.2.follow started.1 visits

/-- Over all steps of a session the replies and the drafts are the same, and so is all of the world
but the events. -/
theorem follow_mutes (verbosity : Verbosity) (draft : Draft) (visits : List Visit)
    (world : World) (events : List Event) :
    ∃ log, (world.follow (draft.heardAt .loud) visits).2.events = world.events ++ log ∧
      ({ world with events } : World).follow (draft.heardAt verbosity) visits =
        (((world.follow (draft.heardAt .loud) visits).1.1,
            (draft.afterAll (visits.map (·.step))).heardAt verbosity),
          { (world.follow (draft.heardAt .loud) visits).2 with
            events := events ++ log.filter verbosity.shows }) := by
  induction visits generalizing draft world events with
  | nil => exact ⟨[], by simp [follow], by simp [follow, Draft.afterAll]⟩
  | cons visit rest ih =>
    obtain ⟨first, told, answers, left⟩ := run_mutes
      (draft.mutes_perform verbosity visit.step) (world.visited visit) events
    rcases ran : (world.visited visit).run ((draft.heardAt .loud).perform visit.step) with
      ⟨⟨reply, next⟩, middle⟩
    rcases ranToo : ({ world.visited visit with events } : World).run
      ((draft.heardAt verbosity).perform visit.step) with ⟨⟨answer, last⟩, final⟩
    rw [ran] at told answers left
    rw [ranToo] at answers left
    obtain ⟨same, loud, muted⟩ : reply = answer ∧ next = (draft.after visit.step).heardAt .loud ∧
      last = (draft.after visit.step).heardAt verbosity := answers
    subst same loud muted left
    obtain ⟨second, toldLater, later⟩ := ih (draft.after visit.step) middle
      (events ++ first.filter verbosity.shows)
    refine ⟨first ++ second, ?_, ?_⟩
    · rw [follow, ran, ← List.append_assoc]
      exact toldLater.trans (congrArg (· ++ second) told)
    · have visited : ({ world with events } : World).visited visit =
          { world.visited visit with events } := rfl
      rw [follow, follow, visited, ran, ranToo, List.filter_append, ← List.append_assoc]
      exact congrArg (fun outcome => ((reply :: outcome.1.1, outcome.1.2), outcome.2)) later

theorem run_start_heardAt (begun : World) (toolchain : Toolchain) (policy : Policy) :
    begun.run (Run.start ⟨verbosity, toolchain⟩ policy) =
      ((Draft.mk toolchain policy (begun.run (Scratch.ofToolchain toolchain)).1 [] []).heardAt
        verbosity, begun) := by
  have rooted : (begun.run (Scratch.ofToolchain toolchain)).2 = begun := by
    rw [Scratch.ofToolchain]
    split <;> rfl
  rw [Run.start, Compilation.start, Builder.ofSettings, run_bind, run_bind, run_bind, rooted]
  rfl

end World

namespace Verbosity

/-- The level that counts if not all is quiet. Debugging raises it to two. -/
def raisedLevel (verbosity : Verbosity) : Nat :=
  max verbosity.level (if verbosity.debug then 2 else 0)

/-- Whether an event is enabled, said by the four settings: none is if all is quiet; otherwise
phases are, debugging and traces are from a level on, and topics are if they are listed or all is
debugged. -/
def enabled (verbosity : Verbosity) (event : Event) : Bool :=
  !verbosity.quiet && match event with
    | .phase _ _ => true
    | .debug _ => 2 ≤ verbosity.raisedLevel
    | .trace _ => 3 ≤ verbosity.raisedLevel
    | .topic about _ => verbosity.debug || verbosity.topics.contains about

theorem effectiveLevel_eq (verbosity : Verbosity) :
    verbosity.effectiveLevel = if verbosity.quiet then 0 else verbosity.raisedLevel := by
  rw [effectiveLevel, raisedLevel]
  cases verbosity.debug <;> grind

theorem shows_eq_enabled (verbosity : Verbosity) : verbosity.shows = verbosity.enabled := by
  funext event
  cases event with
  | phase indent text => simp [shows, enabled, showsPhases]
  | topic about text => simp [shows, enabled, showsTopic]
  | debug text => cases quiet : verbosity.quiet <;>
      simp [shows, enabled, showsDebug, effectiveLevel_eq, quiet]
  | trace text => cases quiet : verbosity.quiet <;>
      simp [shows, enabled, showsTrace, effectiveLevel_eq, quiet]

/-- The second verbosity asks for all that the first one asks for. -/
structure Below (low high : Verbosity) : Prop where
  debug : low.debug = true → high.debug = true
  topics : low.topics ⊆ high.topics
  quiet : high.quiet = true → low.quiet = true
  level : low.level ≤ high.level

theorem Below.enabled {low high : Verbosity} (below : low.Below high) (event : Event)
    (shown : low.enabled event = true) : high.enabled event = true := by
  have raised : low.raisedLevel ≤ high.raisedLevel := by
    have debug := below.debug
    have level := below.level
    rw [raisedLevel, raisedLevel]
    grind
  simp only [Verbosity.enabled, Bool.and_eq_true, Bool.not_eq_true'] at shown ⊢
  refine ⟨?_, ?_⟩
  · cases quiet : high.quiet with
    | true => exact absurd (below.quiet quiet) (by simp [shown.1])
    | false => rfl
  · obtain ⟨-, shown⟩ := shown
    cases event with
    | phase indent text => rfl
    | debug text => simp only [decide_eq_true_eq] at shown ⊢; omega
    | trace text => simp only [decide_eq_true_eq] at shown ⊢; omega
    | topic about text =>
      simp only [Bool.or_eq_true, List.contains_iff_mem] at shown ⊢
      exact shown.imp below.debug (below.topics ·)

end Verbosity

/-- Any steps of a session, whatever the tools do and whatever happens to the machine in between:
the replies, what is open and gathered, and all of the world but its events are the same however
much is reported, and there is one sequence of events of which the log at any verbosity holds
exactly those that are enabled. So asking for more takes no line away and leaves the order. -/
theorem log_is_filtered (toolchain : Toolchain) (policy : Policy) (begun : World)
    (visits : List Run.Visit) :
    ∃ (replies : List Run.Reply) (draft : Run.Draft) (after : World) (log : List Event),
      (∀ verbosity : Verbosity,
        begun.session ⟨verbosity, toolchain⟩ policy visits =
            ((replies, draft.heardAt verbosity),
              { after with events := begun.events ++ log.filter verbosity.enabled }) ∧
          (draft.heardAt verbosity).compilation.opened = draft.opened ∧
          ∀ unit, ((draft.heardAt verbosity).collector? unit).map
              (fun collector => (collector.phase, collector.state?)) =
            (draft.collectors.lookup unit).map
              fun collector => (collector.phase, collector.state?)) ∧
      ∀ low high : Verbosity, low.Below high →
        (log.filter low.enabled).Sublist (log.filter high.enabled) := by
  let scratch := (begun.run (Scratch.ofToolchain toolchain)).1
  let draft : Run.Draft := ⟨toolchain, policy, scratch, [], []⟩
  let loud := begun.follow (draft.heardAt .loud) visits
  obtain ⟨log, told, -⟩ := begun.follow_mutes .loud draft visits begun.events
  refine ⟨loud.1.1, draft.afterAll (visits.map (·.step)), loud.2, log, fun verbosity => ?_,
    fun low high below => log.monotone_filter_right below.enabled⟩
  obtain ⟨own, toldToo, followed⟩ :=
    begun.follow_mutes verbosity draft visits begun.events
  obtain rfl : log = own := List.append_cancel_left (told.symm.trans toldToo)
  refine ⟨?_, rfl, fun unit => ?_⟩
  · rw [World.session, World.run_start_heardAt, ← verbosity.shows_eq_enabled]
    exact followed
  · rw [Run.Draft.collector?_heardAt, Option.map_map]
    simp [Function.comp_def]

/-- A unit whose tool leaves no archive, and then one for which a name is taken in the meantime. -/
def Run.Visit.troubled : List Run.Visit :=
  [⟨.openUnit "u", ScriptedTool.idle.tool, id⟩,
    ⟨.call "u" (.dependency ⟨"a", "1"⟩), ScriptedTool.idle.tool, id⟩,
    ⟨.finish "u", ScriptedTool.idle.tool, id⟩,
    ⟨.openUnit "v", ScriptedTool.idle.tool, id⟩,
    ⟨.call "v" (.fragment "fn f() {}"), ScriptedTool.idle.tool, id⟩,
    ⟨.finish "v", (ScriptedTool.archive .empty).tool, fun machine =>
      machine.withDisk (machine.disk.put ["t", "graft-aaaaaa.rs"] (.file .empty false))⟩]

/-- One log of 21 events, of which the phases are five. A level of two and a listed topic add two
lines each. -/
theorem log_is_filtered_troubled :
    ∃ log : List Event, log.length = 21 ∧
      (∀ verbosity : Verbosity,
        ((World.small ScriptedTool.idle.tool).session
          ⟨verbosity, (Settings.small .unique).toolchain⟩ .basic Run.Visit.troubled).2.events =
            log.filter verbosity.enabled) ∧
      (log.filter (Verbosity.enabled {})).Sublist
        (log.filter (Verbosity.enabled { level := 2, topics := [.build] })) ∧
      (log.filter (Verbosity.enabled {})).length = 5 ∧
      (log.filter (Verbosity.enabled { level := 2, topics := [.build] })).length = 9 ∧
      log.filter (Verbosity.enabled { quiet := true, level := 3 }) = [] := by
  obtain ⟨replies, draft, after, log, same, grows⟩ := log_is_filtered
    (Settings.small .unique).toolchain .basic (.small ScriptedTool.idle.tool) Run.Visit.troubled
  have logged (verbosity : Verbosity) :
      ((World.small ScriptedTool.idle.tool).session
        ⟨verbosity, (Settings.small .unique).toolchain⟩ .basic Run.Visit.troubled).2.events =
          log.filter verbosity.enabled := by
    rw [(same verbosity).1]
    exact List.nil_append _
  have whole : log.filter (Verbosity.enabled .loud) = log := by
    rw [← Verbosity.shows_eq_enabled]
    simp
  have counted :
      let log := ((World.small ScriptedTool.idle.tool).session
        ⟨.loud, (Settings.small .unique).toolchain⟩ .basic Run.Visit.troubled).2.events
      log.length = 21 ∧ (log.filter (Verbosity.enabled {})).length = 5 ∧
        (log.filter (Verbosity.enabled { level := 2, topics := [.build] })).length = 9 ∧
        log.filter (Verbosity.enabled { quiet := true, level := 3 }) = [] := by
    decide +kernel
  rw [logged, whole] at counted
  obtain ⟨length, plain, more, quiet⟩ := counted
  exact ⟨log, length, logged, grows _ _ ⟨nofun, List.nil_subset _, id, Nat.zero_le _⟩,
    plain, more, quiet⟩

end FragmentBuild
