/-! Lists of pairs as finite maps that keep the order in which keys were added. -/
namespace FragmentBuild

/-- Replaces the value at a key, or adds the key at the end. -/
def setEntry [DecidableEq κ] (key : κ) (value : α) : List (κ × α) → List (κ × α)
  | [] => [(key, value)]
  | entry :: rest =>
    if entry.1 = key then (key, value) :: rest else entry :: setEntry key value rest

theorem lookup_setEntry [BEq κ] [LawfulBEq κ] [DecidableEq κ] (key other : κ) (value : α)
    (entries : List (κ × α)) :
    (setEntry key value entries).lookup other =
      if other = key then some value else entries.lookup other := by
  induction entries with
  | nil =>
    by_cases same : other = key
    · simp [setEntry, same]
    · simp [setEntry, List.lookup_cons, same, beq_eq_false_iff_ne.mpr same]
  | cons entry rest ih =>
    obtain ⟨name, old⟩ := entry
    by_cases found : name = key
    · subst found
      by_cases same : other = name
      · simp [setEntry, same]
      · simp [setEntry, List.lookup_cons, same, beq_eq_false_iff_ne.mpr same]
    · by_cases here : other = name
      · subst here
        simp [setEntry, found]
      · simp [setEntry, List.lookup_cons, found, beq_eq_false_iff_ne.mpr here, ih]

/-- Taking out entries by their keys takes out these keys and no others. -/
theorem lookup_filter [BEq κ] [LawfulBEq κ] (keep : κ → Bool) (key : κ)
    (entries : List (κ × α)) :
    (entries.filter fun entry => keep entry.1).lookup key =
      if keep key then entries.lookup key else none := by
  induction entries with
  | nil => simp
  | cons entry rest ih =>
    obtain ⟨name, value⟩ := entry
    by_cases same : key = name
    · subst same
      cases kept : keep key with
      | true => simp [kept]
      | false => simp [kept, ih]
    · have other : (key == name) = false := beq_eq_false_iff_ne.mpr same
      cases kept : keep name with
      | true => simp [kept, List.lookup_cons, other, ih]
      | false => simp [kept, List.lookup_cons, other, ih]

def insertSorted (key : String) (value : α) : List (String × α) → List (String × α)
  | [] => [(key, value)]
  | entry :: rest =>
    if key < entry.1 then (key, value) :: entry :: rest
    else if key = entry.1 then (key, value) :: rest
    else entry :: insertSorted key value rest

/-- Entries in the order of their keys; a later entry replaces an earlier one. -/
def sortEntries (entries : List (String × α)) : List (String × α) :=
  entries.foldl (fun sorted entry => insertSorted entry.1 entry.2 sorted) []

end FragmentBuild
