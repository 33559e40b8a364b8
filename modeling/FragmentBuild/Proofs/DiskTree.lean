import FragmentBuild.Proofs.DiskRequests
import FragmentBuild.Proofs.Running

/-! Disks are trees: whatever stands somewhere stands in a directory. No program gives this up
as long as its tool does not. -/
namespace FragmentBuild

namespace Disk

def IsTree (disk : Disk) : Prop :=
  ∀ location entry, disk.get? location = some entry →
    disk.get? location.dropLast = some .directory

variable {disk : Disk}

theorem isTree_of_entries
    (parents : ∀ entry ∈ disk.entries, disk.get? entry.1.dropLast = some .directory) :
    disk.IsTree := by
  intro location entry stands
  by_cases root : location = []
  · subst root; exact get?_root disk
  · rw [get?, if_neg root, List.lookup_eq_some_iff] at stands
    obtain ⟨before, after, split, -⟩ := stands
    exact parents (location, entry) (by simp [split])

theorem IsTree.put (tree : disk.IsTree) (parent : disk.get? location.dropLast = some .directory)
    (kind : disk.get? location = some .directory → entry = .directory) :
    (disk.put location entry).IsTree := by
  intro other thing stands
  have directories (folder : Location) (was : disk.get? folder = some .directory) :
      (disk.put location entry).get? folder = some .directory := by
    rw [get?_put]
    by_cases root : folder = []
    · rw [if_pos root]
    by_cases same : folder = location
    · subst same; rw [if_neg root, if_pos rfl, kind was]
    · rw [if_neg root, if_neg same, was]
  rw [get?_put] at stands
  by_cases root : other = []
  · subst root; exact get?_root _
  by_cases same : other = location
  · subst same; exact directories _ parent
  · rw [if_neg root, if_neg same] at stands
    exact directories _ (tree other thing stands)

theorem IsTree.eraseThing (tree : disk.IsTree) (thing : disk.get? location ≠ some .directory) :
    (disk.erase location).IsTree := by
  intro other entry stands
  rw [directory_erase_iff disk _ thing]
  rw [get?_erase] at stands
  by_cases root : other = []
  · subst root; exact get?_root disk
  rw [if_neg root] at stands
  by_cases same : other = location
  · simp [same] at stands
  · rw [if_neg same] at stands
    exact tree other entry stands

theorem strictlyBelow_of_dropLast (below : StrictlyBelow root location.dropLast) :
    StrictlyBelow root location := by
  refine ⟨below.1.trans location.dropLast_prefix, ?_⟩
  rintro rfl
  have shorter := below.1.length_le
  rw [List.length_dropLast] at shorter
  have empty : root = [] := by
    by_contra notEmpty
    have := List.length_pos_iff.mpr notEmpty
    omega
  exact below.2 (by rw [empty]; rfl)

theorem IsTree.eraseBelow (tree : disk.IsTree) (root : Location) :
    (disk.eraseBelow root).IsTree := by
  intro other entry stands
  rw [get?_eraseBelow] at stands ⊢
  by_cases below : StrictlyBelow root other
  · simp [below] at stands
  · have above : ¬ StrictlyBelow root other.dropLast :=
      fun inside => below (strictlyBelow_of_dropLast inside)
    rw [if_neg below] at stands
    rw [if_neg above]
    exact tree other entry stands

theorem IsTree.eraseEmptied (tree : disk.IsTree) (root : Location) :
    ((disk.eraseBelow root).erase root).IsTree := by
  intro other entry stands
  have emptied := tree.eraseBelow root
  rw [get?_erase] at stands ⊢
  by_cases top : other = []
  · subst top; rfl
  rw [if_neg top] at stands
  by_cases same : other = root
  · simp [same] at stands
  rw [if_neg same] at stands
  have apart : other.dropLast ≠ root := by
    intro inside
    rw [get?_eraseBelow, if_pos] at stands
    · contradiction
    · exact ⟨inside ▸ other.dropLast_prefix, Ne.symm same⟩
  by_cases highest : other.dropLast = []
  · rw [if_pos highest]
  · rw [if_neg highest, if_neg apart]
    exact emptied other entry stands

theorem IsTree.free_below (tree : disk.IsTree) (free : disk.get? location = none)
    (rest : Location) : disk.get? (location ++ rest) = none := by
  induction rest using List.reverseRecOn with
  | nil => simpa using free
  | append_singleton rest name ih =>
    cases stands : disk.get? (location ++ (rest ++ [name])) with
    | none => rfl
    | some entry =>
      have folder := tree _ entry stands
      rw [← List.append_assoc, List.dropLast_concat, ih] at folder
      contradiction

/-- Following a path from a directory ends inside a directory. -/
theorem IsTree.walk_parent (tree : disk.IsTree) (begun : disk.get? here = some .directory)
    (followed : disk.walk here parts = .ok location) :
    disk.get? location.dropLast = some .directory := by
  induction parts generalizing here with
  | nil => cases followed; exact tree _ .directory begun
  | cons piece rest ih =>
    obtain ⟨directories, short, leads⟩ := (walk_eq_ok_iff ..).mp followed
    have rested : disk.walk (nextLocation here piece) rest = .ok location :=
      (walk_eq_ok_iff ..).mpr ⟨fun directory member =>
        directories directory (List.mem_cons_of_mem _ member),
        fun other member => short other (List.mem_cons_of_mem _ member), leads⟩
    cases rest with
    | nil =>
      cases rested
      rw [nextLocation]
      split
      · exact tree here .directory begun
      split
      · exact tree _ .directory (tree here .directory begun)
      · rw [List.dropLast_concat]; exact begun
    | cons next more => exact ih (directories _ (by simp [passed])) rested

theorem IsTree.locate_parent (tree : disk.IsTree)
    (found : disk.locate working path = .ok location) :
    disk.get? location.dropLast = some .directory := by
  obtain ⟨start, -, followed⟩ := (locate_eq_ok_iff ..).mp found
  obtain ⟨piece, rest, shape⟩ := List.exists_cons_of_ne_nil (pieces_ne_nil path.text.toList)
  refine tree.walk_parent ?_ followed
  exact ((walk_eq_ok_iff ..).mp followed).1 start (by simp [shape, passed])

theorem IsTree.follow_parent (tree : disk.IsTree)
    (parent : disk.get? here.dropLast = some .directory)
    (followed : disk.follow count here = .ok location) :
    disk.get? location.dropLast = some .directory := by
  induction count using Nat.strongRecOn generalizing here with
  | ind count ih =>
    rcases follow_cases followed with rfl | ⟨target, next, left, -, leads, less, further⟩
    · exact parent
    · exact ih left less (tree.locate_parent leads) further

theorem IsTree.aim_parent (tree : disk.IsTree) (leads : disk.aim working path = .ok location) :
    disk.get? location.dropLast = some .directory := by
  obtain ⟨here, leads, followed⟩ := (aim_eq_ok_iff ..).mp leads
  exact tree.follow_parent (tree.locate_parent leads) followed

theorem origin_of_stem_eq_nil (none : stem path = [])
    (begun : origin working path = .ok start) : start = [] := by
  obtain ⟨empties, split, empty⟩ := stem_append path
  have notEmpty : path.text.toList ≠ [] := by
    intro nothing
    simp [origin, nothing] at begun
  obtain ⟨c, rest, shape⟩ := List.exists_cons_of_ne_nil notEmpty
  have absolute : path.isAbsolute = true := by
    rcases mem_pieces_of_mem path.text.toList (c := c) (by simp [shape]) with
      slash | ⟨piece, member, within⟩
    · simp [Path.isAbsolute, shape, slash]
    · rw [split, none, List.nil_append] at member
      rw [empty piece member] at within
      contradiction
  simp only [origin, absolute] at begun
  repeat' split at begun
  all_goals simp_all

theorem IsTree.locateNew_parent (tree : disk.IsTree)
    (found : disk.locateNew working path = .ok (location, slash)) :
    disk.get? location.dropLast = some .directory := by
  obtain ⟨⟨start, begun, followed⟩, -⟩ := (locateNew_eq_ok_iff ..).mp found
  cases shape : stem path with
  | nil =>
    rw [shape] at followed
    obtain rfl := origin_of_stem_eq_nil shape begun
    cases followed
    exact get?_root disk
  | cons piece rest =>
    refine tree.walk_parent ?_ followed
    exact ((walk_eq_ok_iff ..).mp followed).1 start (by simp [shape, passed])

theorem IsTree.makeDirectory (tree : disk.IsTree)
    (made : disk.makeDirectory working path = .ok after) : after.IsTree := by
  obtain ⟨location, slash, found, free, rfl, -⟩ := makeDirectory_eq_ok made
  exact tree.put (tree.locateNew_parent found) fun _ => rfl

theorem IsTree.makeDirectories (tree : disk.IsTree) (working : Option Location) (path : Path) :
    (disk.makeDirectories working path).2.IsTree :=
  makeEach_keeps path.ancestors tree fun _ _ _ _ prepared made => prepared.makeDirectory made

theorem IsTree.createFile (tree : disk.IsTree)
    (made : disk.createFile working path = .ok after) : after.IsTree := by
  obtain ⟨location, leads, free, rfl⟩ := createFile_eq_ok made
  exact tree.put (tree.locate_parent leads) fun folder => by simp [free] at folder

theorem IsTree.makeLink (tree : disk.IsTree)
    (made : disk.makeLink working target path = .ok after) : after.IsTree := by
  cases found : disk.locateNew working path with
  | error cause =>
    by_cases empty : target.text.isEmpty <;>
      simp [Disk.makeLink, found, empty, bind, Except.bind] at made
  | ok goal =>
    obtain ⟨location, slash⟩ := goal
    by_cases empty : target.text.isEmpty
    · simp [Disk.makeLink, empty, bind, Except.bind] at made
    cases stands : disk.get? location with
    | some entry => simp [Disk.makeLink, found, stands, empty, bind, Except.bind] at made
    | none =>
      cases slash with
      | true => simp [Disk.makeLink, found, stands, empty, bind, Except.bind] at made
      | false =>
        simp [Disk.makeLink, found, stands, empty, bind, Except.bind, pure, Except.pure] at made
        rw [← made]
        exact tree.put (tree.locateNew_parent found) (by simp [stands])

theorem IsTree.write (tree : disk.IsTree)
    (written : disk.write working path contents = .ok after) : after.IsTree := by
  obtain ⟨location, leads, ⟨-, rfl⟩ | ⟨thing, executable, rfl⟩⟩ := write_eq_ok written
  · exact tree
  · exact tree.put (tree.aim_parent leads) fun folder => absurd folder thing

theorem IsTree.rename (tree : disk.IsTree)
    (moved : disk.rename working source target = .ok after) : after.IsTree := by
  obtain ⟨location, entry, goal, found, thing, leads, noFolder, rfl⟩ := rename_eq_ok moved
  split
  · exact tree
  · have stands := ((find_eq_ok_iff ..).mp found).2
    have notDirectory : disk.get? location ≠ some .directory := by
      rw [stands]; simpa using thing
    refine (tree.eraseThing notDirectory).put ?_ fun folder => ?_
    · rw [directory_erase_iff disk _ notDirectory]; exact tree.locate_parent leads
    · rw [directory_erase_iff disk _ notDirectory] at folder
      exact absurd folder noFolder

theorem IsTree.copy (tree : disk.IsTree)
    (copied : disk.copy working source target = .ok after) : after.IsTree := by
  obtain ⟨_, _, _, goal, -, leads, ⟨-, rfl⟩ | ⟨thing, rfl⟩⟩ := copy_eq_ok copied
  · exact tree
  · exact tree.put (tree.aim_parent leads) fun folder => absurd folder thing

theorem IsTree.removeFile (tree : disk.IsTree)
    (removed : disk.removeFile working path = .ok after) : after.IsTree := by
  obtain ⟨location, -, -, thing, rfl⟩ := removeFile_eq_ok removed
  exact tree.eraseThing thing

theorem IsTree.removeTree (tree : disk.IsTree) (working : Option Location) (path : Path) :
    (disk.removeTree working path).2.IsTree := by
  rcases removeTree_cases disk working path with
    ⟨cause, refused⟩ | ⟨location, target, link, gone⟩ |
      ⟨root, -, ⟨result, emptied, -⟩ | ⟨erased, -⟩⟩
  · rw [refused]; exact tree
  · rw [gone]
    exact tree.eraseThing (by simp [((find_eq_ok_iff ..).mp link).2])
  · rw [emptied]; exact tree.eraseBelow root
  · rw [erased]; exact tree.eraseEmptied root

end Disk

def Tool.KeepsTree (tool : Tool) : Prop :=
  ∀ invocation machine, machine.disk.IsTree → (tool invocation machine).2.IsTree

namespace World

theorem answer_isTree (world : World) (request : Request) (sane : Tool.KeepsTree world.tool)
    (tree : world.machine.disk.IsTree) : (world.answer request).2.machine.disk.IsTree := by
  have changed (result : Except SystemError Disk)
      (kept : ∀ disk, result = .ok disk → disk.IsTree) :
      (world.machine.change result).2.disk.IsTree := by
    rcases result with cause | disk
    · exact tree
    · exact kept disk rfl
  cases request with
  | makeDirectories path => exact tree.makeDirectories world.machine.working path
  | makeDirectory path => exact changed _ fun _ => tree.makeDirectory
  | createFile path => exact changed _ fun _ => tree.createFile
  | write path contents => exact changed _ fun _ => tree.write
  | rename source target => exact changed _ fun _ => tree.rename
  | copy source target => exact changed _ fun _ => tree.copy
  | removeFile path => exact changed _ fun _ => tree.removeFile
  | removeTree path => exact tree.removeTree world.machine.working path
  | discardFile path => exact changed _ fun _ => tree.removeFile
  | discardTree path => exact tree.removeTree world.machine.working path
  | call invocation => exact sane invocation world.machine tree
  | _ => exact tree

theorem answer_tool (world : World) (request : Request) :
    (world.answer request).2.tool = world.tool := by
  cases request <;> rfl

/-- Whatever a program asks for, its tool stays the same and its disk a tree. -/
theorem run_isTree (world : World) (program : Program α) (sane : Tool.KeepsTree world.tool)
    (tree : world.machine.disk.IsTree) : (world.run program).2.machine.disk.IsTree := by
  induction program generalizing world with
  | done value => exact tree
  | ask request next ih =>
    refine ih _ _ ?_ (answer_isTree world request sane tree)
    rw [answer_tool]
    exact sane

end World

end FragmentBuild
