import FragmentBuild.Proofs.Walk

/-! What stands on a disk after one entry was put, taken away or moved, and what that means
for paths. Only directories decide where a path leads. -/
namespace FragmentBuild

def StrictlyBelow (root location : Location) : Prop := root <+: location ∧ root ≠ location

instance (root location : Location) : Decidable (StrictlyBelow root location) :=
  inferInstanceAs (Decidable (root <+: location ∧ root ≠ location))

namespace Disk

@[simp] theorem get?_root (disk : Disk) : disk.get? [] = some .directory := by simp [get?]

theorem get?_put (disk : Disk) (location other : Location) (entry : DiskEntry) :
    (disk.put location entry).get? other =
      if other = [] then some .directory
      else if other = location then some entry else disk.get? other := by
  by_cases root : other = []
  · simp [root]
  · simp [get?, put, root, lookup_setEntry]

theorem get?_erase (disk : Disk) (location other : Location) :
    (disk.erase location).get? other =
      if other = [] then some .directory
      else if other = location then none else disk.get? other := by
  by_cases root : other = []
  · simp [root]
  · rw [get?, if_neg root, if_neg root, erase, lookup_filter (fun key => key != location)]
    by_cases same : other = location <;> simp [get?, root, same]

theorem get?_put_of_ne (disk : Disk) (entry : DiskEntry) (apart : other ≠ location) :
    (disk.put location entry).get? other = disk.get? other := by
  rw [get?_put, if_neg apart]
  split
  · rename_i root
    rw [root, get?_root]
  · rfl

theorem get?_erase_of_ne (disk : Disk) (apart : other ≠ location) :
    (disk.erase location).get? other = disk.get? other := by
  rw [get?_erase, if_neg apart]
  split
  · rename_i root
    rw [root, get?_root]
  · rfl

theorem get?_of_erase {disk : Disk} (stands : (disk.erase location).get? other = some entry) :
    disk.get? other = some entry := by
  rw [get?_erase] at stands
  split at stands
  · rename_i root
    rw [root, get?_root, stands]
  · split at stands
    · cases stands
    · exact stands

/-- Emptying a directory takes away exactly what lies below it. -/
theorem get?_eraseBelow (disk : Disk) (root location : Location) :
    (disk.eraseBelow root).get? location =
      if StrictlyBelow root location then none else disk.get? location := by
  by_cases top : location = []
  · subst top
    have apart : ¬ StrictlyBelow root [] := fun below => below.2 (List.prefix_nil.mp below.1)
    rw [get?_root, get?_root, if_neg apart]
  · rw [get?, if_neg top, eraseBelow,
      lookup_filter (fun key => !(root.isPrefixOf key && root != key)), get?, if_neg top]
    have test : root.isPrefixOf location = decide (root <+: location) := by
      rw [Bool.eq_iff_iff, List.isPrefixOf_iff_prefix, decide_eq_true_iff]
    by_cases below : root <+: location <;> by_cases same : root = location <;>
      simp [StrictlyBelow, test, below, same]

def KeepsDirectories (before after : Disk) : Prop :=
  ∀ location, before.get? location = some .directory → after.get? location = some .directory

/-- Everything on `before` stands as it is on `after`, and no link is new. -/
structure Grows (before after : Disk) : Prop where
  keeps : ∀ location entry, before.get? location = some entry → after.get? location = some entry
  links : ∀ location target, after.get? location = some (.link target) →
    before.get? location = some (.link target)

theorem Grows.refl (disk : Disk) : Grows disk disk := ⟨fun _ _ => id, fun _ _ => id⟩

theorem Grows.trans (first : Grows before middle) (second : Grows middle after) :
    Grows before after where
  keeps _ _ stands := second.keeps _ _ (first.keeps _ _ stands)
  links _ _ stands := first.links _ _ (second.links _ _ stands)

theorem Grows.keepsDirectories (grows : Grows before after) : KeepsDirectories before after :=
  fun location => grows.keeps location .directory

theorem grows_put (disk : Disk) (free : disk.get? location = none)
    (noLink : ∀ target, entry ≠ .link target) :
    Grows disk (disk.put location entry) where
  keeps other thing stands := by
    rw [get?_put]
    by_cases root : other = []
    · rw [if_pos root, ← stands, root, get?_root]
    · have apart : other ≠ location := by rintro rfl; simp [free] at stands
      rw [if_neg root, if_neg apart, stands]
  links other target stands := by
    rw [get?_put] at stands
    split at stands
    · cases stands
    · split at stands
      · exact absurd (Option.some.inj stands) (noLink target)
      · exact stands

theorem directory_put_iff (disk : Disk) (other : Location)
    (was : disk.get? location ≠ some .directory) (becomes : entry ≠ .directory) :
    (disk.put location entry).get? other = some .directory ↔
      disk.get? other = some .directory := by
  rw [get?_put]
  by_cases root : other = []
  · simp [root]
  by_cases same : other = location
  · subst same; simp [root, was, becomes]
  · simp [root, same]

theorem directory_erase_iff (disk : Disk) (other : Location)
    (was : disk.get? location ≠ some .directory) :
    (disk.erase location).get? other = some .directory ↔ disk.get? other = some .directory := by
  rw [get?_erase]
  by_cases root : other = []
  · simp [root]
  by_cases same : other = location
  · subst same; simp [root, was]
  · simp [root, same]

theorem ne_root_of_not_directory (disk : Disk) (was : disk.get? location ≠ some .directory) :
    location ≠ [] := by
  rintro rfl; exact was (get?_root disk)

end Disk

end FragmentBuild
