import FragmentBuild.Proofs.Holdings

/-! Programs that keep out of each other's way. Whether a program does is told by the program
alone: whenever it goes on, whatever the others have done meanwhile, it changes only what it has
for itself and what nobody has. Programs that all do so can run side by side in any order. -/
namespace FragmentBuild

def IsGivenName (name : String) : Prop :=
  name.toList.length = 6 ∧ ∀ letter ∈ name.toList, letter ∈ nameAlphabet

theorem isGivenName_countedName (number : Nat) : IsGivenName (countedName number) := by
  have letters : (countedName number).toList = nameLetters number 6 := String.toList_ofList
  refine ⟨?_, ?_⟩
  · rw [letters]
    rfl
  · rw [letters]
    exact mem_nameAlphabet number 6

theorem IsGivenName.plain (given : IsGivenName name) : '/' ∉ name.toList := fun slash =>
  absurd (given.2 '/' slash) (by decide +kernel)

theorem IsGivenName.undotted (given : IsGivenName name) : '.' ∉ name.toList := fun dot =>
  absurd (given.2 '.' dot) (by decide +kernel)

/-- What ends in a given name is neither empty nor made of dots. -/
theorem IsGivenName.append_ne (given : IsGivenName name) (start : List UInt8)
    (dots : ∀ byte ∈ special, byte = dotByte) : start ++ (name : OsText).toList ≠ special := by
  rintro rfl
  have some : (name : OsText).toList ≠ [] := fun none => by
    obtain rfl := OsText.toList_ofText_eq_nil_iff.mp none
    simpa using given.1
  obtain ⟨byte, rest, shape⟩ := List.exists_cons_of_ne_nil some
  have member : byte ∈ (name : OsText).toList := by simp [shape]
  obtain rfl := dots byte (List.mem_append_right _ member)
  exact given.undotted (dotByte_mem_ofText.mp member)

theorem IsGivenName.isPlainName_append {start : OsText} (given : IsGivenName name)
    (plain : slashByte ∉ start.toList) : Path.IsPlainName (start ++ name) where
  plain := by
    rw [OsText.toList_append, List.mem_append]
    exact fun either => either.elim plain (slashByte_mem_ofText.not.mpr given.plain)
  leads := by
    rw [leadsOn, Bool.and_eq_true, decide_eq_true_iff, decide_eq_true_iff]
    exact ⟨given.append_ne _ (by simp), given.append_ne _ (by simp)⟩
  down := given.append_ne _ (by simp)

/-- A tool keeps to its output, no directory is made for work on the way to where others work,
and no link is met. -/
structure Exchange.IsFair (site : Site) (exchange : Exchange) : Prop where
  output : ∀ invocation answered before left,
    exchange = ⟨.call invocation, answered, before, left⟩ → invocation.KeepsToOutput before left
  apart : ∀ path before left, exchange = ⟨.makeDirectory path, .ok (), before, left⟩ →
    ∀ location, site.Guards location → ¬ path.place <+: location
  straight : exchange.IsStraight

/-- How far a program has come: the machine as it last saw it, and what it has asked for. -/
structure Stage where
  machine : Machine
  trace : List Exchange

namespace Stage

def held (stage : Stage) : List Holding := heldAfter stage.trace

def next (stage : Stage) (exchange : Exchange) : Stage :=
  ⟨exchange.after, stage.trace ++ [exchange]⟩

theorem held_next (stage : Stage) (exchange : Exchange) :
    (stage.next exchange).held = exchange.holds stage.held :=
  heldAfter_concat ..

/-- Since a program has come to that stage the others have left alone what it has. -/
abbrev Leads (site : Site) (stage : Stage) (machine : Machine) : Prop :=
  Undisturbed (Covered stage.held) site.OnWay stage.machine machine

end Stage

/-- A program that has come to a stage asks for something, and the world, in which others have
been at work, answers. -/
structure Turn (mishap : Mishap) (site : Site) (stage : Stage) (world : World)
    (request : Request) (answer : request.Answer) (after : World) : Prop where
  gives : world.Gives mishap request answer after
  leads : stage.Leads site world.machine
  names : ∀ number, IsGivenName (world.names number)
  tree : world.machine.disk.IsTree
  left : after.machine.disk.IsTree
  fair : Exchange.IsFair site ⟨request, answer, world.machine, after.machine⟩

/-- What a program owes the others when it goes on, and what its tool must find. -/
structure Exchange.Behaves (site : Site) (reads : Invocation → Machine → Prop)
    (held : List Holding) (exchange : Exchange) : Prop where
  changes : Disk.ChangesOnly
    (fun location => Covered held location ∨ Covered (exchange.holds held) location)
    (fun _ => True) exchange.before.disk exchange.after.disk
  fresh : ∀ holding ∈ exchange.holds held, holding ∈ held ∨
    exchange.before.disk.get? holding.place = none ∧ site.OnWay holding.place.dropLast
  sound : site.Sound exchange.after.disk (exchange.holds held)
  reads : ∀ invocation answered before left,
    exchange = ⟨.call invocation, answered, before, left⟩ → reads invocation before

/-- From that stage on a program behaves, whatever the others do in the meantime, and when it is
done its result is as `post` has it. -/
def Secures (mishap : Mishap) (site : Site) (reads : Invocation → Machine → Prop)
    (post : α → Stage → Prop) : Program α → Stage → Prop
  | .done value, stage => post value stage
  | .ask request next, stage => ∀ world answer after,
    Turn mishap site stage world request answer after →
      Exchange.Behaves site reads stage.held ⟨request, answer, world.machine, after.machine⟩ ∧
      Secures mishap site reads post (next answer)
        (stage.next ⟨request, answer, world.machine, after.machine⟩)

namespace Secures

variable {mishap : Mishap} {site : Site} {reads : Invocation → Machine → Prop} {stage : Stage}

theorem bind {program : Program α} {next : α → Program β} {middle : α → Stage → Prop}
    {post : β → Stage → Prop} (first : Secures mishap site reads middle program stage)
    (rest : ∀ value later, middle value later →
      Secures mishap site reads post (next value) later) :
    Secures mishap site reads post (program >>= next) stage := by
  induction program generalizing stage with
  | done value => exact rest value stage first
  | ask request resume ih =>
    intro world answer after turn
    obtain ⟨behaves, later⟩ := first world answer after turn
    exact ⟨behaves, ih answer later⟩

theorem mono {program : Program α} {post weaker : α → Stage → Prop}
    (secures : Secures mishap site reads post program stage)
    (weaken : ∀ value later, post value later → weaker value later) :
    Secures mishap site reads weaker program stage := by
  induction program generalizing stage with
  | done value => exact weaken value stage secures
  | ask request resume ih =>
    intro world answer after turn
    obtain ⟨behaves, later⟩ := secures world answer after turn
    exact ⟨behaves, ih answer later⟩

theorem reading {program : Program α} {post : α → Stage → Prop}
    {weaker : Invocation → Machine → Prop} (secures : Secures mishap site reads post program stage)
    (weaken : ∀ invocation machine, reads invocation machine → weaker invocation machine) :
    Secures mishap site weaker post program stage := by
  induction program generalizing stage with
  | done value => exact secures
  | ask request resume ih =>
    intro world answer after turn
    obtain ⟨behaves, later⟩ := secures world answer after turn
    exact ⟨{ behaves with
      reads := fun invocation answered before left same =>
        weaken _ _ (behaves.reads invocation answered before left same) }, ih answer later⟩

end Secures

namespace Exchange.Behaves

variable {site : Site} {reads : Invocation → Machine → Prop} {exchange : Exchange}
  {held others : List Holding}

theorem apart (behaves : exchange.Behaves site reads held) (tree : exchange.before.disk.IsTree)
    (sound : site.Sound exchange.before.disk others)
    (apart : ∀ location, Covered held location → ¬ Covered others location)
    (covered : Covered (exchange.holds held) location) : ¬ Covered others location := by
  obtain ⟨holding, member, covers⟩ := covered
  rcases behaves.fresh holding member with old | ⟨free, onWay⟩
  · exact apart location ⟨holding, old, covers⟩
  · exact sound.fresh tree free onWay covers

theorem ways (behaves : exchange.Behaves site reads held) (tree : exchange.before.disk.IsTree)
    (sound : site.Sound exchange.before.disk held) (onWay : site.OnWay location)
    (folder : exchange.before.disk.get? location = some .directory) :
    exchange.after.disk.get? location = some .directory := by
  refine behaves.changes.keeps ?_ folder
  rintro (old | ⟨holding, member, covers⟩)
  · exact sound.not_covered onWay folder old
  · rcases behaves.fresh holding member with old | ⟨free, -⟩
    · exact sound.not_covered onWay folder ⟨holding, old, covers⟩
    · obtain ⟨rest, rfl⟩ := covers.below
      rw [tree.free_below free rest] at folder
      cases folder

theorem undisturbed (behaves : exchange.Behaves site reads held)
    (tree : exchange.before.disk.IsTree) (sound : site.Sound exchange.before.disk held)
    (soundToo : site.Sound exchange.before.disk others)
    (apart : ∀ location, Covered held location → ¬ Covered others location)
    {machine : Machine} (same : machine.disk = exchange.before.disk) :
    Undisturbed (Covered others) site.OnWay machine (machine.withDisk exchange.after.disk) where
  mine := by
    rw [same]
    refine behaves.changes.weaken (fun location => ?_) fun _ => id
    rintro (old | new)
    · exact apart location old
    · exact behaves.apart tree soundToo apart new
  ways _ onWay folder := behaves.ways tree sound onWay (same ▸ folder)
  stays _ := World.working_filter

end Exchange.Behaves

namespace World

variable {mishap : Mishap} {world after : World} {request : Request} {answer : request.Answer}

/-- A request that is answered is carried out; where a refused one has done nothing, it leaves
everything as it was. -/
theorem Gives.cases (clean : mishap.IsClean) (gives : world.Gives mishap request answer after) :
    (answer = (world.answer request).1 ∧ after = (world.answer request).2) ∨
      (∃ cause, request.refusal? cause = some answer) ∧ after = world := by
  rcases runs_request gives with ⟨-, answered, left⟩ | ⟨cause, left, refusal, harm, rfl, -⟩
  · exact .inl ⟨answered, left⟩
  · exact .inr ⟨⟨cause, refusal⟩, by rw [clean _ _ _ harm]⟩

theorem Gives.isTree (clean : mishap.IsClean) (gives : world.Gives mishap request answer after)
    (sane : Tool.KeepsTree world.tool) (tree : world.machine.disk.IsTree) :
    after.machine.disk.IsTree := by
  rcases gives.cases clean with ⟨-, rfl⟩ | ⟨-, rfl⟩
  · exact answer_isTree world request sane tree
  · exact tree

end World

namespace Process

variable {ι : Type} [DecidableEq ι] {mishap : Mishap} {site : Site}
  {reads : ι → Invocation → Machine → Prop} {post : ι → α → Stage → Prop}
  {processes : ι → Process α} {trace : List (ι × Exchange)} {index other : ι}

theorem ownTrace_own (index : ι) (trace : List (ι × Exchange)) (exchange : Exchange) :
    ownTrace index (trace ++ [(index, exchange)]) = ownTrace index trace ++ [exchange] := by
  simp [ownTrace]

theorem ownTrace_other (apart : other ≠ index) (trace : List (ι × Exchange))
    (exchange : Exchange) :
    ownTrace other (trace ++ [(index, exchange)]) = ownTrace other trace := by
  simp [ownTrace, apart.symm]

theorem mem_ownTrace {exchange : Exchange} :
    exchange ∈ ownTrace index trace ↔ (index, exchange) ∈ trace := by
  simp [ownTrace]

theorem proceed_own (processes : ι → Process α) (index : ι) (next : Process α) :
    proceed processes index next index = next :=
  if_pos rfl

theorem proceed_other (processes : ι → Process α) (next : Process α) (apart : other ≠ index) :
    proceed processes index next other =
      (processes other).onDisk next.world.machine.disk :=
  if_neg apart

theorem disk_proceed (processes : ι → Process α) (index other : ι) (next : Process α) :
    (proceed processes index next other).world.machine.disk = next.world.machine.disk := by
  rw [proceed]
  split <;> rfl

def heldBy (index : ι) (trace : List (ι × Exchange)) : List Holding :=
  heldAfter (ownTrace index trace)

theorem heldBy_own (index : ι) (trace : List (ι × Exchange)) (exchange : Exchange) :
    heldBy index (trace ++ [(index, exchange)]) = exchange.holds (heldBy index trace) := by
  rw [heldBy, ownTrace_own, heldAfter_concat]
  rfl

theorem heldBy_other (apart : other ≠ index) (trace : List (ι × Exchange))
    (exchange : Exchange) :
    heldBy other (trace ++ [(index, exchange)]) = heldBy other trace := by
  rw [heldBy, ownTrace_other apart]
  rfl

/-- Processes on one disk none of which has got into the way of another. -/
structure AtPeace (mishap : Mishap) (site : Site) (reads : ι → Invocation → Machine → Prop)
    (post : ι → α → Stage → Prop) (processes : ι → Process α) (trace : List (ι × Exchange)) :
    Prop where
  shared : ∀ index other,
    (processes index).world.machine.disk = (processes other).world.machine.disk
  tree : ∀ index, (processes index).world.machine.disk.IsTree
  names : ∀ index number, IsGivenName ((processes index).world.names number)
  tools : ∀ index, Tool.KeepsTree (processes index).world.tool
  secures : ∀ index, ∃ machine,
    Stage.Leads site ⟨machine, ownTrace index trace⟩ (processes index).world.machine ∧
    Secures mishap site (reads index) (post index) (processes index).rest
      ⟨machine, ownTrace index trace⟩
  sound : ∀ index, site.Sound (processes index).world.machine.disk (heldBy index trace)
  apart : ∀ index other, index ≠ other → ∀ location,
    Covered (heldBy index trace) location → ¬ Covered (heldBy other trace) location
  reads : ∀ index invocation answered before left,
    (index, (⟨.call invocation, answered, before, left⟩ : Exchange)) ∈ trace →
      reads index invocation before

section Step

variable {exchange : Exchange}

theorem AtPeace.soundFor (peace : AtPeace mishap site reads post processes trace)
    (before : exchange.before = (processes index).world.machine) (other : ι) :
    site.Sound exchange.before.disk (heldBy other trace) := by
  rw [before, peace.shared index other]
  exact peace.sound other

theorem AtPeace.spares (peace : AtPeace mishap site reads post processes trace)
    (before : exchange.before = (processes index).world.machine)
    (behaves : exchange.Behaves site (reads index) (heldBy index trace)) (apart : other ≠ index) :
    Undisturbed (Covered (heldBy other trace)) site.OnWay (processes other).world.machine
      ((processes other).world.machine.withDisk exchange.after.disk) :=
  behaves.undisturbed (before ▸ peace.tree index) (peace.soundFor before index)
    (peace.soundFor before other) (peace.apart index other apart.symm)
    (before ▸ peace.shared other index)

/-- Nothing comes to belong to two processes. -/
theorem AtPeace.apart_next (peace : AtPeace mishap site reads post processes trace)
    (before : exchange.before = (processes index).world.machine)
    (behaves : exchange.Behaves site (reads index) (heldBy index trace)) (first second : ι)
    (apart : first ≠ second) (location : Location)
    (covered : Covered (heldBy first (trace ++ [(index, exchange)])) location) :
    ¬ Covered (heldBy second (trace ++ [(index, exchange)])) location := by
  have keepsFrom (other : ι) (different : other ≠ index)
      (own : Covered (exchange.holds (heldBy index trace)) location) :
      ¬ Covered (heldBy other trace) location :=
    behaves.apart (before ▸ peace.tree index) (peace.soundFor before other)
      (peace.apart index other different.symm) own
  by_cases mine : first = index
  · subst mine
    rw [heldBy_own] at covered
    rw [heldBy_other apart.symm]
    exact keepsFrom second apart.symm covered
  · rw [heldBy_other mine] at covered
    by_cases yours : second = index
    · subst yours
      rw [heldBy_own]
      exact fun own => keepsFrom first mine own covered
    · rw [heldBy_other yours]
      exact peace.apart first second apart location covered

end Step

/-- Whichever of the processes goes on, none gets into the way of another. -/
theorem AtPeace.step (clean : mishap.IsClean)
    (peace : AtPeace mishap site reads post processes trace) {request : Request}
    {next : request.Answer → Program α} {answer : request.Answer} {after : World}
    (asks : (processes index).rest = .ask request next)
    (gives : (processes index).world.Gives mishap request answer after)
    (fair : Exchange.IsFair site
      ⟨request, answer, (processes index).world.machine, after.machine⟩) :
    AtPeace mishap site reads post (proceed processes index ⟨after, next answer⟩)
      (trace ++
        [(index, ⟨request, answer, (processes index).world.machine, after.machine⟩)]) := by
  obtain ⟨machine, leads, secures⟩ := peace.secures index
  have left := gives.isTree clean (peace.tools index) (peace.tree index)
  have fixed := World.Runs.fixed gives
  rw [asks] at secures
  obtain ⟨behaves, later⟩ := secures _ answer after
    ⟨gives, leads, peace.names index, peace.tree index, left, fair⟩
  generalize same : (⟨request, answer, (processes index).world.machine, after.machine⟩ :
    Exchange) = exchange at behaves later ⊢
  have before : exchange.before = (processes index).world.machine := by rw [← same]
  have reached : exchange.after = after.machine := by rw [← same]
  have spared (other : ι) (apart : other ≠ index) := reached ▸ peace.spares before behaves apart
  constructor
  case shared =>
    intro first second
    rw [disk_proceed, disk_proceed]
  case tree =>
    intro other
    rw [disk_proceed]
    exact left
  case names =>
    intro other number
    by_cases mine : other = index
    · rw [mine, proceed_own, fixed.1]
      exact peace.names index number
    · rw [proceed_other _ _ mine]
      exact peace.names other number
  case tools =>
    intro other
    by_cases mine : other = index
    · rw [mine, proceed_own, fixed.2]
      exact peace.tools index
    · rw [proceed_other _ _ mine]
      exact peace.tools other
  case secures =>
    intro other
    by_cases mine : other = index
    · rw [mine, proceed_own, ownTrace_own]
      exact ⟨after.machine, .refl _, reached ▸ later⟩
    · rw [proceed_other _ _ mine, ownTrace_other mine]
      obtain ⟨seen, found, secure⟩ := peace.secures other
      exact ⟨seen, found.trans (spared other mine), secure⟩
  case sound =>
    intro other
    rw [disk_proceed]
    by_cases mine : other = index
    · rw [mine, heldBy_own, ← reached]
      exact behaves.sound
    · rw [heldBy_other mine]
      exact (spared other mine).sound (peace.sound other)
  case apart => exact peace.apart_next before behaves
  case reads =>
    intro other invocation answered found made member
    rcases List.mem_append.mp member with earlier | last
    · exact peace.reads other invocation answered found made earlier
    · obtain ⟨rfl, called⟩ := Prod.mk.inj (List.mem_singleton.mp last)
      exact behaves.reads invocation answered found made called.symm

/-- Processes may take turns as a list has it. -/
theorem Interleaves.takeTurns {start : ι → Process α}
    (ran : Interleaves mishap start trace processes) (turns : List ι) :
    Interleaves mishap start (trace ++ (Process.takeTurns processes turns).1)
      (Process.takeTurns processes turns).2 := by
  induction turns generalizing trace processes with
  | nil => simpa [Process.takeTurns] using ran
  | cons index turns ih =>
    have further : Interleaves mishap start (trace ++ (goOn processes index).1)
        (goOn processes index).2 := by
      cases rest : (processes index).rest with
      | done value => simpa [goOn, rest] using ran
      | ask request next =>
        simp only [goOn, rest]
        exact ran.step rest (.answered .done)
    rw [Process.takeTurns, ← List.append_assoc]
    exact ih further

end Process

end FragmentBuild
