import FragmentBuild.Proofs.DiskRequests
import FragmentBuild.Proofs.MachinePaths

/-! What the removal of a directory takes away. Everything below the directory goes. The
directory itself stays if the path to it leads through something below it: that path is lost
before the directory's turn comes. -/
namespace FragmentBuild

/-- Whether a location goes when the directory `root`, to which a path with the given trail
leads, is removed. -/
def Taken (trail : List Location) (root location : Location) : Prop :=
  StrictlyBelow root location ∨
    location = root ∧ ∀ visited ∈ trail, ¬ StrictlyBelow root visited

instance (trail : List Location) (root location : Location) :
    Decidable (Taken trail root location) :=
  inferInstanceAs (Decidable (_ ∨ _ ∧ _))

namespace Disk

theorem walk_missing (disk : Disk) (here : Location) (parts : List (List UInt8))
    (known : ∀ directory ∈ passed here parts,
      disk.get? directory = some .directory ∨ disk.get? directory = none)
    (short : ∀ piece ∈ parts, IsShort piece)
    (missing : ∃ directory ∈ passed here parts, disk.get? directory = none) :
    disk.walk here parts = .error .notFound := by
  induction parts generalizing here with
  | nil => obtain ⟨directory, member, -⟩ := missing; simp [passed] at member
  | cons piece rest ih =>
    rw [walk_cons]
    rcases known here List.mem_cons_self with stands | absent
    · have shortHere : piece.length ≤ 255 := short piece List.mem_cons_self
      simp only [stands, if_pos shortHere]
      refine ih (nextLocation here piece)
        (fun directory member => known directory (List.mem_cons_of_mem _ member))
        (fun other member => short other (List.mem_cons_of_mem _ member)) ?_
      obtain ⟨directory, member, absent⟩ := missing
      rcases List.mem_cons.mp member with rfl | later
      · simp [stands] at absent
      · exact ⟨directory, later, absent⟩
    · simp only [absent]

/-- What a path leads through, below its goal, is passed before its last name. -/
theorem trail_below_iff (found : destination start (pieces path.text.toList) = root) :
    (∃ visited ∈ path.trail start, StrictlyBelow root visited) ↔
      ∃ visited ∈ passed start (stem path), StrictlyBelow root visited := by
  obtain ⟨empties, split, empty⟩ := stem_append path
  obtain ⟨stays, -, back⟩ := passed_empties (destination start (stem path)) empties empty
  have leads : destination start (stem path) = root := by
    rw [← found, split, destination_append, back]
  have notItself : ¬ StrictlyBelow root root := fun below => below.2 rfl
  rw [leads] at stays
  rw [Path.trail, found, split, passed_append, leads]
  constructor
  · rintro ⟨visited, member, below⟩
    rcases List.mem_append.mp member with within | last
    · rcases List.mem_append.mp within with early | late
      · exact ⟨visited, early, below⟩
      · rw [stays visited late] at below; exact absurd below notItself
    · rw [List.mem_singleton.mp last] at below; exact absurd below notItself
  · rintro ⟨visited, member, below⟩
    exact ⟨visited, by simp [member], below⟩

theorem losesParent_iff {disk : Disk} (begun : origin working path = .ok start)
    (found : disk.find working path = .ok (root, .directory)) :
    disk.losesParent working path root = true ↔
      ∃ visited ∈ path.trail start, StrictlyBelow root visited := by
  obtain ⟨leads, stands⟩ := (find_eq_ok_iff ..).mp found
  obtain ⟨_, begunToo, followed⟩ := (locate_eq_ok_iff ..).mp leads
  cases begun.symm.trans begunToo
  obtain ⟨directories, short, goal⟩ := (walk_eq_ok_iff ..).mp followed
  obtain ⟨empties, split, empty⟩ := stem_append path
  rw [trail_below_iff goal, losesParent, begun]
  rw [split] at directories short
  rw [passed_append] at directories
  dsimp only [Except.bind]
  have kept (directory : Location) (member : directory ∈ passed start (stem path)) :
      (disk.eraseBelow root).get? directory =
        if StrictlyBelow root directory then none else some .directory := by
    rw [get?_eraseBelow, directories directory (List.mem_append_left _ member)]
  rcases List.eq_nil_or_concat (stem path) with none | ⟨front, last, shape⟩
  · have here : destination start empties = start :=
      (passed_empties start empties empty).2.2
    obtain rfl : start = root := by rw [← goal, split, none, List.nil_append, here]
    have notItself : ¬ StrictlyBelow start start := fun below => below.2 rfl
    simp [none, walk, passed, get?_eraseBelow, notItself, stands]
  · have passes : passed start (stem path) = passed start front ++ [destination start front] := by
      rw [shape, List.concat_eq_append, passed_append]; rfl
    have shortFront (piece : List UInt8) (member : piece ∈ front) : IsShort piece :=
      short piece (by simp [shape, member])
    have drop : (stem path).dropLast = front := by simp [shape]
    rw [drop, passes]
    rw [passes] at kept
    by_cases lost : ∃ visited ∈ passed start front, StrictlyBelow root visited
    · obtain ⟨visited, member, below⟩ := lost
      have missing : (disk.eraseBelow root).walk start front = .error .notFound := by
        refine walk_missing _ start front (fun directory member => ?_) shortFront
          ⟨visited, member, by rw [kept visited (List.mem_append_left _ member), if_pos below]⟩
        rw [kept directory (List.mem_append_left _ member)]
        split <;> simp
      rw [missing]
      exact iff_of_true rfl ⟨visited, List.mem_append_left _ member, below⟩
    · have reached : (disk.eraseBelow root).walk start front = .ok (destination start front) := by
        refine (walk_eq_ok_iff ..).mpr ⟨fun directory member => ?_, shortFront, rfl⟩
        rw [kept directory (List.mem_append_left _ member),
          if_neg fun below => lost ⟨directory, member, below⟩]
      rw [reached]
      dsimp only
      rw [kept (destination start front) (by simp)]
      constructor
      · intro gone
        refine ⟨destination start front, by simp, ?_⟩
        by_contra apart
        simp [apart] at gone
      · rintro ⟨visited, member, below⟩
        rcases List.mem_append.mp member with early | last
        · exact absurd ⟨visited, early, below⟩ lost
        · rw [← List.mem_singleton.mp last, if_pos below]; rfl

/-- A directory that was removed has lost what the removal takes away, and nothing else has
changed. -/
theorem removeTree_eq_ok {disk : Disk}
    (noLink : ∀ location target, disk.find working path ≠ .ok (location, .link target))
    (removed : disk.removeTree working path = (.ok (), after)) :
    ∃ start root, origin working path = .ok start ∧
      disk.find working path = .ok (root, .directory) ∧
      root = destination start (pieces path.text.toList) ∧
      ∀ location, after.get? location =
        if Taken (path.trail start) root location then none else disk.get? location := by
  rcases removeTree_cases disk working path with
    ⟨cause, refused⟩ | ⟨location, target, link, -⟩ |
      ⟨root, found, ⟨result, emptied, lost⟩ | ⟨erased, kept, notRoot⟩⟩
  · simp [refused] at removed
  · exact absurd link (noLink location target)
  all_goals
    obtain ⟨leads, stands⟩ := (find_eq_ok_iff ..).mp found
    obtain ⟨start, begun, followed⟩ := (locate_eq_ok_iff ..).mp leads
    have goal := ((walk_eq_ok_iff ..).mp followed).2.2
    refine ⟨start, root, begun, found, goal.symm, fun location => ?_⟩
  · rw [emptied] at removed
    obtain ⟨rfl, rfl⟩ := Prod.mk.inj removed
    obtain ⟨visited, member, below⟩ := (losesParent_iff begun found).mp (lost rfl)
    have same : Taken (path.trail start) root location ↔ StrictlyBelow root location :=
      or_iff_left fun itself => itself.2 visited member below
    rw [get?_eraseBelow]
    simp only [same]
  · rw [erased] at removed
    obtain ⟨-, rfl⟩ := Prod.mk.inj removed
    have stays : ∀ visited ∈ path.trail start, ¬ StrictlyBelow root visited := by
      intro visited member below
      have lost := (losesParent_iff begun found).mpr ⟨visited, member, below⟩
      rw [kept] at lost
      contradiction
    have same : Taken (path.trail start) root location ↔
        StrictlyBelow root location ∨ location = root :=
      or_congr_right (and_iff_left stays)
    rw [get?_erase, get?_eraseBelow]
    simp only [same]
    by_cases top : location = []
    · subst top
      have apart : ¬ StrictlyBelow root [] := fun below => below.2 (List.prefix_nil.mp below.1)
      simp [apart, Ne.symm notRoot]
    by_cases itself : location = root <;> by_cases below : StrictlyBelow root location <;>
      simp [top, itself, below, notRoot]

end Disk

namespace Machine

variable {machine : Machine} {disk : Disk}

theorem find_removed {taken : Location → Prop} [DecidablePred taken]
    (absolute : path.isAbsolute = true)
    (found : machine.find path = .ok (goal, entry))
    (gone : ∀ location, disk.get? location =
      if taken location then none else machine.disk.get? location)
    (remains : (machine.withDisk disk).find path = .ok (place, thing)) : thing = entry := by
  obtain ⟨leads, stands⟩ := (find_eq_ok_iff ..).mp found
  obtain ⟨leadsNow, standsNow⟩ := (find_eq_ok_iff ..).mp remains
  rw [locate_of_absolute absolute leads] at stands
  rw [locate_of_absolute absolute leadsNow, withDisk, gone] at standsNow
  split at standsNow
  · cases standsNow
  · exact Option.some.inj (standsNow.symm.trans stands)

/-- What is taken away is missing from a path exactly if the path leads through it. -/
theorem isFile_removed_iff {taken : Location → Prop} [DecidablePred taken]
    (absolute : path.isAbsolute = true)
    (found : machine.find path = .ok (goal, .file contents executable))
    (gone : ∀ location, disk.get? location =
      if taken location then none else machine.disk.get? location) :
    (machine.withDisk disk).isFile path = true ↔
      ∀ location ∈ path.trail [], ¬ taken location := by
  obtain ⟨leads, stands⟩ := (find_eq_ok_iff ..).mp found
  have here := locate_of_absolute absolute leads
  obtain ⟨start, begun, followed⟩ := (locate_eq_ok_iff ..).mp leads
  obtain rfl := origin_absolute begun absolute
  obtain ⟨directories, short, -⟩ := (Disk.walk_eq_ok_iff ..).mp followed
  have stays {location : Location} {entry : DiskEntry} (kept : disk.get? location = some entry) :
      ¬ taken location := by
    intro lost
    rw [gone, if_pos lost] at kept
    cases kept
  rw [isFile_iff]
  constructor
  · rintro ⟨place, _, _, remains⟩
    have remains := (reach_cases remains).resolve_right fun ⟨other, target, link⟩ => by
      cases find_removed absolute found gone link
    obtain ⟨leadsNow, standsNow⟩ := (find_eq_ok_iff ..).mp remains
    have same := locate_of_absolute absolute leadsNow
    rw [locate_withDisk_absolute machine disk absolute] at leadsNow
    obtain ⟨start, begunNow, followedNow⟩ := (Disk.locate_eq_ok_iff ..).mp leadsNow
    obtain rfl := origin_absolute begunNow absolute
    obtain ⟨directoriesNow, -, -⟩ := (Disk.walk_eq_ok_iff ..).mp followedNow
    intro location member
    rcases List.mem_append.mp member with within | last
    · exact stays (directoriesNow location within)
    · rw [List.mem_singleton.mp last, ← same]
      exact stays standsNow
  · intro untouched
    refine ⟨goal, contents, executable, reach_of_find ((find_eq_ok_iff ..).mpr ⟨?_, ?_⟩)⟩
    · rw [locate_withDisk_absolute machine disk absolute]
      refine (Disk.locate_eq_ok_iff ..).mpr ⟨[], begun, (Disk.walk_eq_ok_iff ..).mpr
        ⟨fun directory member => ?_, short, here.symm⟩⟩
      rw [gone, if_neg (untouched directory (List.mem_append_left _ member)),
        directories directory member]
    · rw [withDisk, gone, if_neg (untouched goal (by simp [Path.trail, here])), stands]

end Machine

end FragmentBuild
