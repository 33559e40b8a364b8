import FragmentBuild.Proofs.CleanPackages
import FragmentBuild.Proofs.OrphanedArchives

/-! Every build cleans up after itself: whatever fails and whatever stood on the disk before, it
leaves behind the archive that it reports and nothing else, as long as its tool keeps to its
output and what is removed goes. -/
namespace FragmentBuild

/-- Whether two disks are the same but for the given locations. -/
def Disk.isSameBut (places : Location → Bool) (before after : Disk) : Bool :=
  (before.entries ++ after.entries).all fun entry =>
    before.get? entry.1 == after.get? entry.1 || places entry.1

theorem Disk.changesOnly_of_isSameBut {places : Location → Bool} {before after : Disk}
    (same : isSameBut places before after = true) :
    ChangesOnly (fun location => places location = true) made before after := by
  intro location
  have unlisted {disk : Disk} (missing : ∀ entry ∈ disk.entries, entry.1 ≠ location)
      (notRoot : location ≠ []) : disk.get? location = none := by
    rw [get?, if_neg notRoot, List.lookup_eq_none_iff]
    intro entry member
    simpa using (missing entry member).symm
  by_cases root : location = []
  · rw [root, get?_root, get?_root]
    exact .inl rfl
  by_cases listed : ∃ entry ∈ before.entries ++ after.entries, entry.1 = location
  · obtain ⟨entry, member, rfl⟩ := listed
    have checked := List.all_eq_true.mp same entry member
    rw [Bool.or_eq_true, beq_iff_eq] at checked
    exact checked.imp Eq.symm .inl
  · have missing (entry : Location × DiskEntry)
        (member : entry ∈ before.entries ++ after.entries) : entry.1 ≠ location :=
      fun same => listed ⟨entry, member, same⟩
    rw [unlisted (fun entry member => missing entry (List.mem_append_left _ member)) root,
      unlisted (fun entry member => missing entry (List.mem_append_right _ member)) root]
    exact .inl rfl

def Path.place (path : Path) : Location := destination [] (pieces path.text.toList)

theorem Path.Names.eq_place {path : Path} (names : path.Names working location)
    (absolute : path.isAbsolute = true) : location = path.place :=
  (names_of_absolute absolute).mp names

def Invocation.isInTarget (invocation : Invocation) (location : Location) : Bool :=
  match invocation.environment.lookup Builder.targetVariable with
  | some target => (Path.mk (.ofBytes target)).isAbsolute &&
      (Path.mk (.ofBytes target)).place.isPrefixOf location
  | none => false

/-- A test, for absolute paths, that a tool keeps to its output and a removal takes away what its
path names. -/
def Exchange.isOrderly : Exchange → Bool
  | ⟨.call invocation, _, before, left⟩ =>
    Disk.isSameBut invocation.isInTarget before.disk left.disk
  | ⟨.removeTree path, answered, _, left⟩ =>
    path.isAbsolute && answered.toBool && path.place != [] &&
      left.disk.entries.all fun entry => !path.place.isPrefixOf entry.1
  | ⟨.discardTree _, _, _, _⟩ => false
  | _ => true

/-- Whether no directory is made at or above certain locations. -/
def Exchange.leavesFree (ways : List Location) : Exchange → Bool
  | ⟨.makeDirectory path, _, _, _⟩ =>
    path.isAbsolute && ways.all fun location => !path.place.isPrefixOf location
  | _ => true

theorem Exchange.apart_of_leavesFree {path : Path} {answered : Except SystemError Unit}
    {before left : Machine}
    (free : Exchange.leavesFree ways ⟨.makeDirectory path, answered, before, left⟩ = true)
    (member : location ∈ ways) : path.isAbsolute = true ∧ ¬ path.place <+: location := by
  obtain ⟨absolute, all⟩ := (Bool.and_eq_true ..).mp free
  have apart := List.all_eq_true.mp all location member
  rw [Bool.not_eq_true', ← Bool.not_eq_true, List.isPrefixOf_iff_prefix] at apart
  exact ⟨absolute, apart⟩

theorem onlyOutputs_of_isOrderly (orderly : ∀ exchange ∈ trace, exchange.isOrderly = true) :
    OnlyOutputs trace := by
  intro invocation answered before left member
  have same : Disk.isSameBut invocation.isInTarget before.disk left.disk = true :=
    orderly _ member
  have changes : Disk.ChangesOnly (fun location => invocation.isInTarget location = true)
      (fun _ => False) before.disk left.disk := Disk.changesOnly_of_isSameBut same
  refine ⟨changes.weaken (fun location inside => ?_) fun _ => id, fun plain location _ => ?_⟩
  · rw [Invocation.isInTarget] at inside
    rw [Invocation.Output]
    cases told : invocation.environment.lookup Builder.targetVariable with
    | none =>
      rw [told] at inside
      cases inside
    | some target =>
      rw [told] at inside
      obtain ⟨absolute, below⟩ := (Bool.and_eq_true ..).mp inside
      exact ⟨_, (Path.names_of_absolute absolute).mpr rfl, List.isPrefixOf_iff_prefix.mp below⟩
  · rcases changes location with unchanged | inside | ⟨⟨⟩, -⟩
    · exact .inl unchanged
    · rw [Invocation.isInTarget, plain] at inside
      cases inside

theorem clears_of_isOrderly {exchange : Exchange} (orderly : exchange.isOrderly = true) :
    exchange.Clears := by
  obtain ⟨request, answered, before, left⟩ := exchange
  cases request with
  | removeTree path =>
    simp only [Exchange.isOrderly, Bool.and_eq_true] at orderly
    obtain ⟨⟨⟨absolute, success⟩, notRoot⟩, missing⟩ := orderly
    intro root names _
    obtain rfl := names.eq_place absolute
    refine ⟨?_, fun location within => ?_⟩
    · rcases answered with cause | ⟨⟩
      · cases success
      · rfl
    · have top : location ≠ [] := by
        rintro rfl
        simp [List.prefix_nil.mp within] at notRoot
      rw [Disk.get?, if_neg top, List.lookup_eq_none_iff]
      intro entry member
      have apart := List.all_eq_true.mp missing entry member
      rw [Bool.not_eq_true', ← Bool.not_eq_true, List.isPrefixOf_iff_prefix] at apart
      refine bne_iff_ne.mpr ?_
      rintro rfl
      exact apart within
  | discardTree path => cases orderly
  | _ => trivial

theorem mem_nameAlphabet (number count : Nat) :
    ∀ letter ∈ nameLetters number count, letter ∈ nameAlphabet := by
  induction count generalizing number with
  | zero => exact nofun
  | succ count ih =>
    intro letter member
    rw [nameLetters, List.mem_append, List.mem_singleton] at member
    rcases member with front | rfl
    · exact ih _ letter front
    · cases found : nameAlphabet[number % 62]? with
      | none => exact (by decide +kernel : 'a' ∈ nameAlphabet)
      | some other => exact List.mem_of_getElem? found

theorem World.isProper_small (tool : Tool) : (World.small tool).IsProper where
  tree := Disk.isTree_of_entries (show ∀ entry ∈ Machine.small.disk.entries,
    Machine.small.disk.get? entry.1.dropLast = some .directory by decide +kernel)
  working := by
    rintro here ⟨⟩
    decide +kernel
  names number := by
    have letters : ((World.small tool).names number).toList = nameLetters number 6 :=
      String.toList_ofList
    rw [letters]
    exact fun slash => absurd (mem_nameAlphabet number 6 '/' slash) (by decide +kernel)

end FragmentBuild
