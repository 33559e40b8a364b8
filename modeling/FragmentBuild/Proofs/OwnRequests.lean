import FragmentBuild.Proofs.Neighbours

/-! What a program may ask for on a disk that it shares. It may look at anything, make missing
directories, make what nobody has, and change or remove what it has for itself. Each rule says
what is then known to the program, whatever the others do. -/
namespace FragmentBuild

/-- Where a request may change what stands, if tools keep to their outputs. -/
def Request.Reaches (machine : Machine) : Request → Location → Prop
  | .call invocation, location => invocation.Output machine.working location
  | request, location => request.Writes machine location

def Request.IsQuiet : Request → Prop
  | .workingDirectory | .environment _ | .makeDirectories _ | .read _ | .isPresent _ | .isFile _
  | .freshName | .report _ | .link _ | .linkPlan | .print _ => True
  | _ => False

theorem Request.IsQuiet.not_reaches {request : Request} (quiet : request.IsQuiet)
    (reaches : request.Reaches machine location) : False := by
  cases request <;> first | exact quiet | exact reaches

theorem Request.IsQuiet.holds {request : Request} (quiet : request.IsQuiet)
    (answer : request.Answer) (before after : Machine) (held : List Holding) :
    Exchange.holds held ⟨request, answer, before, after⟩ = held := by
  cases request <;> first | exact quiet.elim | rfl

/-- To make something new in a directory one has to get to the directory. -/
theorem Disk.way_of_locateNew {disk : Disk} {base : Path}
    (absolute : (base.child name).isAbsolute = true) (plain : Path.IsPlainName name)
    (new : disk.locateNew working (base.child name) = .ok (location, slash)) :
    location = (base.child name).place ∧
      ∀ passes ∈ base.way, disk.get? passes = some .directory := by
  obtain ⟨⟨start, begun, followed⟩, -⟩ := (locateNew_eq_ok_iff ..).mp new
  obtain rfl := Machine.origin_absolute begun absolute
  have named := Path.pieces_child base plain.plain
  have closed : ¬ EndsInSlash (base.child name) := by
    have leads := plain.leads
    rw [leadsOn, Bool.and_eq_true, decide_eq_true_iff] at leads
    simp [EndsInSlash, named, leads.1]
  rw [stem_of_not_endsInSlash closed] at followed
  obtain ⟨folders, -, leads⟩ := (walk_eq_ok_iff ..).mp followed
  exact ⟨leads.symm, fun passes member =>
    folders passes ((Path.mem_passed_child_iff base plain.plain).mpr member)⟩

namespace Stage

/-- A program has gone on from one stage to another. Of what it had, it has left alone all but
`places`, and now it has `held`. -/
structure Moves (site : Site) (places : Location → Prop) (held : List Holding)
    (first last : Stage) : Prop where
  leads : Undisturbed (fun location => Covered first.held location ∧ ¬ places location)
    site.OnWay first.machine last.machine
  has : last.held = held
  trace : first.trace ⊆ last.trace
  sound : site.Sound last.machine.disk held

abbrev Passes (site : Site) (first last : Stage) : Prop :=
  Moves site (fun _ => False) first.held first last

abbrev Sound (site : Site) (stage : Stage) : Prop := site.Sound stage.machine.disk stage.held

variable {site : Site} {places more : Location → Prop} {held : List Holding}
  {first middle last : Stage}

theorem Moves.now (moves : Moves site places held first last) : last.Sound site := by
  rw [Sound, moves.has]
  exact moves.sound

theorem Passes.refl (sound : first.Sound site) : Passes site first first :=
  ⟨.refl _, rfl, fun _ => id, sound⟩

/-- What is not lost on the way is left alone all the way. -/
theorem Moves.trans {early : List Holding} (moves : Moves site places early first middle)
    (later : Moves site more held middle last)
    (inside : ∀ location, Covered first.held location → ¬ places location →
      Covered early location) :
    Moves site (fun location => places location ∨ more location) held first last where
  leads := (moves.leads.narrow fun _ own => ⟨own.1, fun here => own.2 (.inl here)⟩).trans
    (later.leads.narrow fun location own =>
      ⟨moves.has ▸ inside location own.1 fun here => own.2 (.inl here),
        fun here => own.2 (.inr here)⟩)
  has := later.has
  trace := fun _ member => later.trace (moves.trace member)
  sound := later.sound

theorem Passes.then (passes : Passes site first middle)
    (later : Moves site places held middle last) : Moves site places held first last := by
  have both := passes.trans later fun _ covered _ => covered
  exact ⟨both.leads.narrow fun _ own => ⟨own.1, fun here => own.2 (here.resolve_left id)⟩,
    both.has, both.trace, both.sound⟩

theorem Passes.trans (passes : Passes site first middle) (later : Passes site middle last) :
    Passes site first last :=
  passes.then (passes.has ▸ later)

theorem Passes.leads (passes : Passes site first last) : first.Leads site last.machine :=
  Moves.leads passes |>.narrow fun _ covered => ⟨covered, id⟩

theorem Moves.forget (moves : Moves site places held first last)
    (apart : ∀ location, places location → ¬ Covered first.held location) :
    Moves site (fun _ => False) held first last :=
  ⟨moves.leads.narrow fun _ own => ⟨own.1, fun here => apart _ here own.1⟩, moves.has,
    moves.trace, moves.sound⟩

theorem Moves.find (moves : Moves site places held first last) (absolute : path.isAbsolute = true)
    (found : first.machine.find path = .ok (location, entry))
    (passes : ∀ location ∈ passed [] (pieces path.text.toList),
      site.OnWay location ∨ Covered first.held location ∧ ¬ places location)
    (own : Covered first.held path.place) (apart : ¬ places path.place) :
    last.machine.find path = .ok (path.place, entry) :=
  moves.leads.find absolute found passes ⟨own, apart⟩

/-- A file that a program has made beside the other scratch files. -/
structure NewFile (site : Site) (first last : Stage) (path : Path) : Prop where
  child : ∃ name, Path.IsPlainName name ∧ path = site.scratch.child name
  absolute : path.isAbsolute = true
  moves : first.Moves site (fun _ => False) (.file path :: first.held) last
  fresh : ¬ Covered first.held path.place
  found : last.machine.find path = .ok (path.place, .file .empty false)

/-- A directory that a program has made to work in. -/
structure NewTree (site : Site) (first last : Stage) (path : Path) : Prop where
  child : ∃ base name, site.bases base ∧ Path.IsPlainName name ∧ path = base.child name
  absolute : path.isAbsolute = true
  moves : first.Moves site (fun _ => False) (.tree path :: first.held) last
  found : last.machine.find path = .ok (path.place, .directory)
  empty : ∀ location, StrictlyBelow path.place location →
    last.machine.disk.get? location = none

/-- A scratch file that a program has, with what is in it. -/
structure HasFile (site : Site) (stage : Stage) (path : Path) (contents : ByteArray) : Prop where
  member : .file path ∈ stage.held
  child : ∃ name, Path.IsPlainName name ∧ path = site.scratch.child name
  absolute : path.isAbsolute = true
  found : ∃ executable, stage.machine.find path = .ok (path.place, .file contents executable)

variable {site : Site} {places : Location → Prop} {held : List Holding}
  {first middle last stage : Stage} {now : Machine}

theorem HasFile.since (file : stage.HasFile site path contents) {seen now : Machine}
    (since : Undisturbed (Covered stage.held) site.OnWay seen now)
    (found : seen.find path = .ok (location, entry)) :
    now.find path = .ok (path.place, entry) := by
  obtain ⟨name, plain, rfl⟩ := file.child
  exact since.find file.absolute found
    (fun location member => .inl (.inl ((Path.mem_passed_child_iff _ plain.plain).mp member)))
    ⟨_, file.member, rfl⟩

theorem HasFile.leads (file : stage.HasFile site path contents) (leads : stage.Leads site now) :
    ∃ executable, now.find path = .ok (path.place, .file contents executable) := by
  obtain ⟨executable, found⟩ := file.found
  exact ⟨executable, file.since leads found⟩

theorem HasFile.moves (file : first.HasFile site path contents)
    (moves : first.Moves site places held last) (member : .file path ∈ held)
    (apart : ¬ places path.place) : last.HasFile site path contents where
  member := moves.has ▸ member
  child := file.child
  absolute := file.absolute
  found := by
    obtain ⟨executable, found⟩ := file.found
    obtain ⟨name, plain, rfl⟩ := file.child
    exact ⟨executable, moves.find file.absolute found
      (fun location member => .inl (.inl ((Path.mem_passed_child_iff _ plain.plain).mp member)))
      ⟨_, file.member, rfl⟩ apart⟩

theorem HasFile.passes (file : first.HasFile site path contents)
    (passes : first.Passes site last) : last.HasFile site path contents :=
  file.moves passes file.member id

theorem NewFile.hasFile (new : first.NewFile site last path) :
    last.HasFile site path .empty where
  member := new.moves.has ▸ List.mem_cons_self
  child := new.child
  absolute := new.absolute
  found := ⟨_, new.found⟩

theorem NewFile.alone (new : first.NewFile site last path) :
    ∀ holding ∈ .file path :: first.held, holding.place = path.place → holding = .file path := by
  intro holding member same
  refine (List.mem_cons.mp member).resolve_right fun old => new.fresh ?_
  exact ⟨holding, old, same ▸ holding.covers_place⟩

theorem Passes.newFile (passes : first.Passes site middle)
    (new : middle.NewFile site last path) : first.NewFile site last path where
  child := new.child
  absolute := new.absolute
  moves := passes.has ▸ passes.then new.moves
  fresh := passes.has ▸ new.fresh
  found := new.found

theorem Passes.newTree (passes : first.Passes site middle)
    (new : middle.NewTree site last path) : first.NewTree site last path where
  child := new.child
  absolute := new.absolute
  moves := passes.has ▸ passes.then new.moves
  found := new.found
  empty := new.empty

end Stage

namespace Turn

variable {mishap : Mishap} {site : Site} {stage : Stage} {world after : World}
  {request : Request} {answer : request.Answer}

abbrev ends (stage : Stage) (world : World) (request : Request) (answer : request.Answer)
    (after : World) : Stage :=
  stage.next ⟨request, answer, world.machine, after.machine⟩

theorem stays (clean : mishap.IsClean) (turn : Turn mishap site stage world request answer after)
    (stands : after.machine.working = some here) : world.machine.working = some here := by
  rcases turn.gives.cases clean with ⟨-, rfl⟩ | ⟨-, rfl⟩
  · exact (World.answer_touches world request).stays here stands
  · exact stands

theorem changes (clean : mishap.IsClean)
    (turn : Turn mishap site stage world request answer after) :
    Disk.ChangesOnly (request.Reaches world.machine) (fun _ => True)
      world.machine.disk after.machine.disk := by
  rcases turn.gives.cases clean with ⟨-, left⟩ | ⟨-, rfl⟩
  · cases request with
    | call invocation =>
      exact (turn.fair.output invocation answer _ _ rfl).others.weaken (fun _ => id)
        fun _ => False.elim
    | _ =>
      rw [left]
      exact (World.answer_touches world _).disk.weaken (fun _ => id) fun _ _ => trivial
  · exact .refl _

/-- A program that changes what is its own, and nothing that it goes on to have, behaves. -/
theorem settles (reads : Invocation → Machine → Prop) (places : Location → Prop)
    (clean : mishap.IsClean) (turn : Turn mishap site stage world request answer after)
    (sound : stage.Sound site)
    (changes : Disk.ChangesOnly places (fun _ => True) world.machine.disk after.machine.disk)
    (own : ∀ location, places location → Covered stage.held location)
    (fewer : (ends stage world request answer after).held ⊆ stage.held)
    (stands : ∀ holding ∈ (ends stage world request answer after).held,
      places holding.place → holding.Stands after.machine.disk)
    (fits : ∀ invocation, request = .call invocation → reads invocation world.machine) :
    Exchange.Behaves site reads stage.held ⟨request, answer, world.machine, after.machine⟩ ∧
      Stage.Moves site places (ends stage world request answer after).held stage
        (ends stage world request answer after) := by
  have now : site.Sound world.machine.disk stage.held := turn.leads.sound sound
  have left : site.Sound after.machine.disk (ends stage world request answer after).held := by
    refine ⟨fun holding member => ?_, (now.subset fewer).apart⟩
    by_cases reached : places holding.place
    · exact stands holding member reached
    · have stood := now.stands holding (fewer member)
      obtain ⟨entry, there⟩ := Option.ne_none_iff_exists'.mp stood.occupied
      exact stood.of_get? ((changes.keeps reached there).trans there.symm)
  have same := stage.held_next ⟨request, answer, world.machine, after.machine⟩
  refine ⟨⟨?_, ?_, same ▸ left, ?_⟩, ?_, rfl, fun _ member => List.mem_append_left _ member, left⟩
  · exact changes.weaken (fun location here => .inl (own location here)) fun _ => id
  · exact fun holding member => .inl (fewer (same ▸ member))
  · rintro invocation answered before made ⟨⟩
    exact fits invocation rfl
  · refine (turn.leads.narrow fun _ kept => kept.1).trans ⟨?_, fun location onWay folder => ?_, ?_⟩
    · exact changes.weaken (fun location here kept => kept.2 here) fun _ => id
    · exact changes.keeps (fun here => now.not_covered onWay folder (own location here)) folder
    · exact fun here => turn.stays clean

theorem quiet (reads : Invocation → Machine → Prop) (clean : mishap.IsClean)
    (turn : Turn mishap site stage world request answer after) (sound : stage.Sound site)
    (quiet : request.IsQuiet) :
    Exchange.Behaves site reads stage.held ⟨request, answer, world.machine, after.machine⟩ ∧
      stage.Passes site (ends stage world request answer after) := by
  have same : (ends stage world request answer after).held = stage.held :=
    (stage.held_next _).trans (quiet.holds ..)
  have settled := turn.settles reads _ clean sound
    ((turn.changes clean).weaken (fun _ => quiet.not_reaches) fun _ => id) (fun _ => False.elim)
    (fun _ member => same ▸ member) (fun _ _ => False.elim)
    (by rintro invocation rfl; exact quiet.elim)
  rw [same] at settled
  exact settled

theorem idle (reads : Invocation → Machine → Prop) (clean : mishap.IsClean)
    (turn : Turn mishap site stage world request answer after) (sound : stage.Sound site)
    (same : after.machine = world.machine)
    (kept : Exchange.holds stage.held ⟨request, answer, world.machine, after.machine⟩ =
      stage.held)
    (uncalled : ∀ invocation, request ≠ .call invocation) :
    Exchange.Behaves site reads stage.held ⟨request, answer, world.machine, after.machine⟩ ∧
      stage.Passes site (ends stage world request answer after) := by
  have held : (ends stage world request answer after).held = stage.held :=
    (stage.held_next _).trans kept
  have settled := turn.settles reads (fun _ => False) clean sound
    (by rw [same]; exact .refl _) (fun _ => False.elim) (fun _ member => held ▸ member)
    (fun _ _ => False.elim) fun invocation called => absurd called (uncalled invocation)
  rw [held] at settled
  exact settled

/-- A program that makes what nobody has behaves. -/
theorem gains (reads : Invocation → Machine → Prop) (holding : Holding)
    (clean : mishap.IsClean) (turn : Turn mishap site stage world request answer after)
    (sound : stage.Sound site)
    (kept : Exchange.holds stage.held ⟨request, answer, world.machine, after.machine⟩ =
      holding :: stage.held)
    (free : world.machine.disk.get? holding.place = none)
    (onWay : site.OnWay holding.place.dropLast)
    (changes : Disk.ChangesOnly (· = holding.place) (fun _ => True) world.machine.disk
      after.machine.disk)
    (stands : holding.Stands after.machine.disk)
    (apart : ∀ path, holding = .tree path → ∀ location, site.OnWay location →
      ¬ path.place <+: location)
    (uncalled : ∀ invocation, request ≠ .call invocation) :
    Exchange.Behaves site reads stage.held ⟨request, answer, world.machine, after.machine⟩ ∧
      Stage.Moves site (fun _ => False) (holding :: stage.held) stage
        (ends stage world request answer after) ∧
      ∀ location, holding.Covers location → ¬ Covered stage.held location := by
  have now : site.Sound world.machine.disk stage.held := turn.leads.sound sound
  have fresh (location : Location) (covers : holding.Covers location) :
      ¬ Covered stage.held location := now.fresh turn.tree free onWay covers
  have left : site.Sound after.machine.disk (holding :: stage.held) := by
    refine ⟨fun other member => ?_, fun path member => ?_⟩
    · rcases List.mem_cons.mp member with rfl | old
      · exact stands
      · have stood := now.stands other old
        obtain ⟨entry, there⟩ := Option.ne_none_iff_exists'.mp stood.occupied
        have elsewhere : other.place ≠ holding.place := by
          intro same
          rw [same, free] at there
          cases there
        exact stood.of_get? ((changes.keeps elsewhere there).trans there.symm)
    · rcases List.mem_cons.mp member with rfl | old
      · exact apart path rfl
      · exact now.apart path old
  refine ⟨⟨?_, ?_, ?_, ?_⟩, ⟨?_, ?_, fun _ => List.mem_append_left _, left⟩, fresh⟩
  · refine changes.weaken (fun location here => .inr ⟨holding, ?_, ?_⟩) fun _ => id
    · rw [kept]
      exact List.mem_cons_self
    · exact here ▸ holding.covers_place
  · intro other member
    rw [kept] at member
    rcases List.mem_cons.mp member with rfl | old
    · exact .inr ⟨free, onWay⟩
    · exact .inl old
  · rw [kept]
    exact left
  · rintro invocation answered before made ⟨⟩
    exact absurd rfl (uncalled invocation)
  · refine (turn.leads.narrow fun _ kept => kept.1).trans ⟨?_, fun location onWay folder => ?_,
      fun here => turn.stays clean⟩
    · refine changes.weaken (fun location here own => fresh location ?_ own.1) fun _ => id
      exact here ▸ holding.covers_place
    · refine changes.keeps (fun here => ?_) folder
      rw [here, free] at folder
      cases folder
  · exact (stage.held_next _).trans kept

/-- A file is made beside the other scratch files, or nothing happens. -/
theorem createFile (reads : Invocation → Machine → Prop) {answer : Except SystemError Unit}
    (clean : mishap.IsClean)
    (turn : Turn mishap site stage world (.createFile path) answer after)
    (sound : stage.Sound site) (absolute : site.scratch.isAbsolute = true)
    (plain : Path.IsPlainName name) (named : path = site.scratch.child name) :
    Exchange.Behaves site reads stage.held ⟨.createFile path, answer, world.machine,
        after.machine⟩ ∧
      ((∃ cause, answer = .error cause ∧
          stage.Passes site (ends stage world (.createFile path) answer after)) ∨
        answer = .ok () ∧
          stage.NewFile site (ends stage world (.createFile path) answer after) path) := by
  have whole : path.isAbsolute = true :=
    named ▸ (Path.isAbsolute_child site.scratch plain.plain).trans absolute
  rcases World.runs_change rfl turn.gives with ⟨cause, told, same⟩ | ⟨disk, made, told, left⟩
  · obtain rfl : answer = .error cause := told
    obtain ⟨behaves, passes⟩ := turn.idle reads clean sound (same clean) rfl nofun
    exact ⟨behaves, .inl ⟨cause, rfl, passes⟩⟩
  · obtain rfl : answer = .ok () := told
    obtain ⟨location, leads, free, rfl⟩ := Disk.createFile_eq_ok made
    have here : location = path.place := Machine.locate_of_absolute whole leads
    have notRoot := Disk.ne_root_of_not_directory world.machine.disk (by rw [free]; exact nofun)
    have stands : (world.machine.disk.put location (.file .empty false)).get? location =
        some (.file .empty false) := by
      rw [Disk.get?_put, if_neg notRoot, if_pos rfl]
    have changes : Disk.ChangesOnly (· = location) (fun _ => True) world.machine.disk
        (world.machine.disk.put location (.file .empty false)) := Disk.changesOnly_put _ _ _
    have grows : Disk.Grows world.machine.disk
        (world.machine.disk.put location (.file .empty false)) :=
      Disk.grows_put _ free (by simp)
    have found := Machine.find_withDisk grows.keepsDirectories leads stands
    rw [← left] at found
    rw [here] at free stands changes found
    have disk : after.machine.disk = world.machine.disk.put path.place (.file .empty false) := by
      rw [left, here]
      rfl
    obtain ⟨behaves, moves, fresh⟩ := turn.gains reads (.file path) clean sound rfl free
      (by
        rw [Holding.place, Holding.path, named, Path.place_child _ plain, List.dropLast_concat]
        exact .inl (Path.place_mem_way _))
      (disk ▸ changes) ⟨_, _, disk ▸ stands⟩ nofun nofun
    exact ⟨behaves, .inr ⟨rfl, ⟨name, plain, named⟩, whole, moves, fresh _ rfl, found⟩⟩

/-- A directory is made to work in, or nothing happens. -/
theorem makeDirectory (reads : Invocation → Machine → Prop) {answer : Except SystemError Unit}
    (clean : mishap.IsClean)
    (turn : Turn mishap site stage world (.makeDirectory path) answer after)
    (sound : stage.Sound site) (isBase : site.bases base) (absolute : base.isAbsolute = true)
    (plain : Path.IsPlainName name) (named : path = base.child name) :
    Exchange.Behaves site reads stage.held ⟨.makeDirectory path, answer, world.machine,
        after.machine⟩ ∧
      ((∃ cause, answer = .error cause ∧
          stage.Passes site (ends stage world (.makeDirectory path) answer after)) ∨
        answer = .ok () ∧
          stage.NewTree site (ends stage world (.makeDirectory path) answer after) path) := by
  have whole : path.isAbsolute = true :=
    named ▸ (Path.isAbsolute_child base plain.plain).trans absolute
  rcases World.runs_change rfl turn.gives with ⟨cause, told, same⟩ | ⟨disk, made, told, left⟩
  · obtain rfl : answer = .error cause := told
    obtain ⟨behaves, passes⟩ := turn.idle reads clean sound (same clean) rfl nofun
    exact ⟨behaves, .inl ⟨cause, rfl, passes⟩⟩
  · obtain rfl : answer = .ok () := told
    obtain ⟨location, slash, new, free, put, leads⟩ := Disk.makeDirectory_eq_ok made
    rw [named] at new
    obtain ⟨here, folders⟩ := Disk.way_of_locateNew (named ▸ whole) plain new
    rw [← named] at here
    subst here
    have notRoot := Disk.ne_root_of_not_directory world.machine.disk (by rw [free]; exact nofun)
    have stands : after.machine.disk.get? path.place = some .directory := by
      rw [left, put, Machine.withDisk, Disk.get?_put, if_neg notRoot, if_pos rfl]
    have changes : Disk.ChangesOnly (· = path.place) (fun _ => False) world.machine.disk
        after.machine.disk := by
      rw [left, put]
      exact Disk.changesOnly_put _ _ _
    have apart (location : Location) (onWay : site.OnWay location) :
        ¬ path.place <+: location := by
      rcases onWay with scratch | ⟨other, isOther, member⟩
      · exact turn.fair.apart path _ _ rfl location (.inl scratch)
      by_cases same : base = other
      · rintro ⟨rest, rfl⟩
        have folder := folders _ (same ▸ member)
        rw [turn.tree.free_below free rest] at folder
        cases folder
      · exact turn.fair.apart path _ _ rfl location
          (.inr ⟨other, base, isOther, isBase, Ne.symm same, member⟩)
    obtain ⟨behaves, moves, -⟩ := turn.gains reads (.tree path) clean sound rfl free
      (by
        rw [Holding.place, Holding.path, named, Path.place_child _ plain, List.dropLast_concat]
        exact .inr ⟨base, isBase, Path.place_mem_way _⟩)
      (changes.weaken (fun _ => id) fun _ => False.elim) stands
      (fun _ same => by cases same; exact apart) nofun
    refine ⟨behaves, .inr ⟨rfl, ⟨base, name, isBase, plain, named⟩, whole, moves, ?_,
      fun other below => ?_⟩⟩
    · have found : after.machine.locate path = .ok path.place := by
        rw [left]
        exact Machine.locate_filter leads
      exact (Machine.find_eq_ok_iff ..).mpr ⟨found, stands⟩
    · obtain ⟨⟨rest, rfl⟩, apart⟩ := below
      rcases changes (path.place ++ rest) with same | here | ⟨⟨⟩, -⟩
      · exact same.trans (turn.tree.free_below free rest)
      · exact absurd here.symm apart

/-- A program that puts a file where it has something behaves, and finds the file there. -/
theorem puts (reads : Invocation → Machine → Prop) (places : Location → Prop)
    (clean : mishap.IsClean) (turn : Turn mishap site stage world request answer after)
    (sound : stage.Sound site)
    (changes : Disk.ChangesOnly places (fun _ => True) world.machine.disk disk)
    (left : after.machine = world.machine.withDisk disk)
    (own : ∀ location, places location → Covered stage.held location)
    (things : ∀ location, places location →
      world.machine.disk.get? location ≠ some .directory)
    (kept : Exchange.holds stage.held ⟨request, answer, world.machine, after.machine⟩ =
      stage.held)
    (files : ∀ holding ∈ stage.held, places holding.place → holding.place = path.place)
    (uncalled : ∀ invocation, request ≠ .call invocation) (absolute : path.isAbsolute = true)
    (leads : world.machine.locate path = .ok location)
    (stands : disk.get? location = some (.file contents executable)) :
    Exchange.Behaves site reads stage.held ⟨request, answer, world.machine, after.machine⟩ ∧
      stage.Moves site places stage.held (ends stage world request answer after) ∧
      after.machine.find path = .ok (path.place, .file contents executable) := by
  have held : (ends stage world request answer after).held = stage.held :=
    (stage.held_next _).trans kept
  have keeps := changes.keepsDirectories things
  have here : location = path.place := Machine.locate_of_absolute absolute leads
  have same : after.machine.disk = disk := by rw [left]; rfl
  have settled := turn.settles reads places clean sound (same ▸ changes) own
    (fun _ member => held ▸ member) (fun holding member reached => ?_)
    fun invocation called => absurd called (uncalled invocation)
  · rw [held] at settled
    refine ⟨settled.1, settled.2, ?_⟩
    rw [left, ← here]
    exact Machine.find_withDisk keeps leads stands
  · rw [held] at member
    have old := (turn.leads.sound sound).stands holding member
    cases holding with
    | file other =>
      have there : other.place = path.place := files _ member reached
      refine ⟨contents, executable, ?_⟩
      rw [same, there, ← here, stands]
    | tree other => exact absurd old (things _ reached)

/-- A file is written where the program has something, or nothing happens. -/
theorem write (reads : Invocation → Machine → Prop) {answer : Except SystemError Unit}
    (clean : mishap.IsClean)
    (turn : Turn mishap site stage world (.write path contents) answer after)
    (sound : stage.Sound site) (absolute : path.isAbsolute = true)
    (own : Covered stage.held path.place)
    (noSink : stage.machine.disk.get? path.place ≠ some .sink) :
    Exchange.Behaves site reads stage.held ⟨.write path contents, answer, world.machine,
        after.machine⟩ ∧
      ((∃ cause, answer = .error cause ∧
          stage.Passes site (ends stage world (.write path contents) answer after)) ∨
        answer = .ok () ∧ stage.Moves site (· = path.place) stage.held
            (ends stage world (.write path contents) answer after) ∧
          ∃ executable, after.machine.find path =
            .ok (path.place, .file contents executable)) := by
  rcases World.runs_change rfl turn.gives with ⟨cause, told, same⟩ | ⟨disk, made, told, left⟩
  · obtain rfl : answer = .error cause := told
    obtain ⟨behaves, passes⟩ := turn.idle reads clean sound (same clean) rfl nofun
    exact ⟨behaves, .inl ⟨cause, rfl, passes⟩⟩
  · obtain rfl : answer = .ok () := told
    have straight := turn.fair.straight path (List.mem_singleton_self _)
    obtain ⟨location, aimed, ⟨sink, -⟩ | ⟨thing, executable, put⟩⟩ := Disk.write_eq_ok made
    all_goals
      have leads := straight.locate aimed
      have here : location = path.place := Machine.locate_of_absolute absolute leads
    · rw [here] at sink
      exact absurd (turn.leads.stood own sink nofun) noSink
    · have notRoot := Disk.ne_root_of_not_directory world.machine.disk thing
      obtain ⟨behaves, moves, found⟩ := turn.puts reads (· = path.place) clean sound
        (by rw [put, here]; exact Disk.changesOnly_put _ _ _) left (by rintro _ rfl; exact own)
        (by rintro _ rfl; exact here ▸ thing) rfl (fun _ _ => id) nofun absolute leads
        (by rw [put, Disk.get?_put, if_neg notRoot, if_pos rfl])
      exact ⟨behaves, .inr ⟨rfl, moves, executable, found⟩⟩

/-- A file is moved from where the program has something to another such place, or nothing
happens. -/
theorem rename (reads : Invocation → Machine → Prop) {answer : Except SystemError Unit}
    (clean : mishap.IsClean)
    (turn : Turn mishap site stage world (.rename source target) answer after)
    (sound : stage.Sound site) (absolute : target.isAbsolute = true)
    (own : Covered stage.held source.place) (ownToo : Covered stage.held target.place)
    (inside : ∀ holding ∈ stage.held, holding.place ≠ source.place)
    (found : world.machine.find source = .ok (source.place, .file contents executable)) :
    Exchange.Behaves site reads stage.held ⟨.rename source target, answer, world.machine,
        after.machine⟩ ∧
      ((∃ cause, answer = .error cause ∧
          stage.Passes site (ends stage world (.rename source target) answer after)) ∨
        answer = .ok () ∧
          stage.Moves site (fun other => other = source.place ∨ other = target.place) stage.held
            (ends stage world (.rename source target) answer after) ∧
          after.machine.find target = .ok (target.place, .file contents executable)) := by
  rcases World.runs_change rfl turn.gives with ⟨cause, told, same⟩ | ⟨disk, moved, told, left⟩
  · obtain rfl : answer = .error cause := told
    obtain ⟨behaves, passes⟩ := turn.idle reads clean sound (same clean) rfl nofun
    exact ⟨behaves, .inl ⟨cause, rfl, passes⟩⟩
  · obtain rfl : answer = .ok () := told
    obtain ⟨location, entry, goal, foundToo, -, leads, thing, put⟩ := Disk.rename_eq_ok moved
    obtain ⟨rfl, rfl⟩ := Prod.mk.inj (Except.ok.inj (foundToo.symm.trans found))
    have stood := ((Machine.find_eq_ok_iff ..).mp found).2
    have here : goal = target.place := Machine.locate_of_absolute absolute leads
    have notRoot := Disk.ne_root_of_not_directory world.machine.disk thing
    have changes : Disk.ChangesOnly (fun other => other = source.place ∨ other = target.place)
        (fun _ => True) world.machine.disk disk := by
      rw [put, ← here]
      split
      · exact .refl _
      · exact ((Disk.changesOnly_erase _ _).weaken (fun _ => .inl) fun _ => id).trans
          ((Disk.changesOnly_put _ _ _).weaken (fun _ => .inr) fun _ => id)
    have stands : disk.get? goal = some (.file contents executable) := by
      rw [put]
      split
      · rename_i same
        exact same ▸ stood
      · rw [Disk.get?_put, if_neg notRoot, if_pos rfl]
    obtain ⟨behaves, moves, foundThere⟩ := turn.puts reads _ clean sound changes left
      (by rintro _ (rfl | rfl) <;> assumption)
      (by
        rintro _ (rfl | rfl)
        · rw [stood]
          exact nofun
        · exact here ▸ thing)
      rfl (fun holding member reached => reached.resolve_left (inside holding member)) nofun
      absolute leads stands
    exact ⟨behaves, .inr ⟨rfl, moves, foundThere⟩⟩

/-- A file is copied to where the program has something, or nothing happens. -/
theorem copy (reads : Invocation → Machine → Prop) {answer : Except SystemError Unit}
    (clean : mishap.IsClean)
    (turn : Turn mishap site stage world (.copy source target) answer after)
    (sound : stage.Sound site) (absolute : target.isAbsolute = true)
    (own : Covered stage.held target.place)
    (noSink : stage.machine.disk.get? target.place ≠ some .sink)
    (found : world.machine.find source = .ok (source.place, .file contents executable)) :
    Exchange.Behaves site reads stage.held ⟨.copy source target, answer, world.machine,
        after.machine⟩ ∧
      ((∃ cause, answer = .error cause ∧
          stage.Passes site (ends stage world (.copy source target) answer after)) ∨
        answer = .ok () ∧ stage.Moves site (· = target.place) stage.held
            (ends stage world (.copy source target) answer after) ∧
          after.machine.find target = .ok (target.place, .file contents executable)) := by
  rcases World.runs_change rfl turn.gives with ⟨cause, told, same⟩ | ⟨disk, copied, told, left⟩
  · obtain rfl : answer = .error cause := told
    obtain ⟨behaves, passes⟩ := turn.idle reads clean sound (same clean) rfl nofun
    exact ⟨behaves, .inl ⟨cause, rfl, passes⟩⟩
  · obtain rfl : answer = .ok () := told
    have straight := turn.fair.straight target (by simp [Request.paths])
    obtain ⟨location, _, _, goal, reached, aimed, ⟨sink, -⟩ | ⟨thing, put⟩⟩ :=
      Disk.copy_eq_ok copied
    all_goals
      obtain ⟨rfl, same⟩ := Prod.mk.inj (Except.ok.inj (reached.symm.trans
        (Machine.reach_of_find found)))
      cases same
      have leads := straight.locate aimed
      have here : goal = target.place := Machine.locate_of_absolute absolute leads
    · rw [here] at sink
      exact absurd (turn.leads.stood own sink nofun) noSink
    · have notRoot := Disk.ne_root_of_not_directory world.machine.disk thing
      obtain ⟨behaves, moves, foundThere⟩ := turn.puts reads (· = target.place) clean sound
        (by rw [put, here]; exact Disk.changesOnly_put _ _ _) left (by rintro _ rfl; exact own)
        (by rintro _ rfl; exact here ▸ thing) rfl (fun _ _ => id) nofun absolute leads
        (by rw [put, Disk.get?_put, if_neg notRoot, if_pos rfl])
      exact ⟨behaves, .inr ⟨rfl, moves, foundThere⟩⟩

theorem removes (reads : Invocation → Machine → Prop) (gone : Holding) (clean : mishap.IsClean)
    (turn : Turn mishap site stage world request answer after) (sound : stage.Sound site)
    (places : ∀ location, request.Reaches world.machine location → gone.Covers location)
    (own : ∀ location, gone.Covers location → Covered stage.held location)
    (kept : Exchange.holds stage.held ⟨request, answer, world.machine, after.machine⟩ =
      stage.held.filter (· ≠ gone))
    (alone : ∀ holding ∈ stage.held, gone.Covers holding.place → holding = gone)
    (uncalled : ∀ invocation, request ≠ .call invocation) :
    Exchange.Behaves site reads stage.held ⟨request, answer, world.machine, after.machine⟩ ∧
      stage.Moves site gone.Covers (stage.held.filter (· ≠ gone))
        (ends stage world request answer after) := by
  have held : (ends stage world request answer after).held = stage.held.filter (· ≠ gone) :=
    (stage.held_next _).trans kept
  have settled := turn.settles reads gone.Covers clean sound
    ((turn.changes clean).weaken places fun _ => id) own
    (fun holding member => by rw [held] at member; exact (List.mem_filter.mp member).1)
    (fun holding member reached => by
      rw [held] at member
      obtain ⟨old, other⟩ := List.mem_filter.mp member
      exact absurd (alone holding old reached) (by simpa using other))
    fun invocation called => absurd called (uncalled invocation)
  rw [held] at settled
  exact settled

end Turn

end FragmentBuild
