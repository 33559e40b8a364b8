import FragmentBuild.Disk
import FragmentBuild.Proofs.PathPieces

/-! Following paths on a disk. Where the pieces of a path lead and which directories they pass
depends on the pieces alone; the disk only has to hold these directories. -/
namespace FragmentBuild

/-- Where one piece of a path leads. -/
def nextLocation (here : Location) (piece : List UInt8) : Location :=
  if piece = [] ∨ piece = [dotByte] then here
  else if piece = [dotByte, dotByte] then here.dropLast
  else here ++ [⟨piece⟩]

def destination (here : Location) (parts : List (List UInt8)) : Location :=
  parts.foldl nextLocation here

/-- The locations that have to be directories for the pieces to be followed. -/
def passed : Location → List (List UInt8) → List Location
  | _, [] => []
  | here, piece :: rest => here :: passed (nextLocation here piece) rest

abbrev IsShort (piece : List UInt8) : Prop := piece.length ≤ 255

theorem destination_append (here : Location) (front back : List (List UInt8)) :
    destination here (front ++ back) = destination (destination here front) back :=
  List.foldl_append

theorem passed_append (here : Location) (front back : List (List UInt8)) :
    passed here (front ++ back) = passed here front ++ passed (destination here front) back := by
  induction front generalizing here with
  | nil => rfl
  | cons piece rest ih => simp [passed, destination, ih]

theorem nextLocation_of_not_leadsOn (here : Location) (neutral : leadsOn piece = false) :
    nextLocation here piece = here := by
  have special : piece = [] ∨ piece = [dotByte] := by
    by_cases empty : piece = [] <;> simp_all [leadsOn]
  simp [nextLocation, special]

theorem destination_filter (here : Location) (parts : List (List UInt8)) :
    destination here (parts.filter leadsOn) = destination here parts := by
  induction parts generalizing here with
  | nil => rfl
  | cons piece rest ih =>
    cases kind : leadsOn piece with
    | true =>
      rw [List.filter_cons_of_pos kind]
      exact ih (nextLocation here piece)
    | false =>
      rw [List.filter_cons_of_neg (by simp [kind]), ih]
      simp [destination, nextLocation_of_not_leadsOn here kind]

theorem mem_passed_of_mem_filter (here : Location) (parts : List (List UInt8))
    (member : location ∈ passed here (parts.filter leadsOn)) : location ∈ passed here parts := by
  induction parts generalizing here with
  | nil => exact member
  | cons piece rest ih =>
    cases kind : leadsOn piece with
    | true =>
      rw [List.filter_cons_of_pos kind] at member
      rcases List.mem_cons.mp member with rfl | later
      · exact List.mem_cons_self
      · exact List.mem_cons_of_mem _ (ih _ later)
    | false =>
      rw [List.filter_cons_of_neg (by simp [kind])] at member
      have later := ih here member
      rw [← nextLocation_of_not_leadsOn here kind] at later
      exact List.mem_cons_of_mem _ later

theorem nextLocation_plain (here : Location) (notEmpty : piece ≠ []) (notDot : piece ≠ [dotByte])
    (notDots : piece ≠ [dotByte, dotByte]) : nextLocation here piece = here ++ [⟨piece⟩] := by
  simp [nextLocation, notEmpty, notDot, notDots]

theorem isShort_special (special : piece = [] ∨ piece = [dotByte] ∨ piece = [dotByte, dotByte]) :
    IsShort piece := by
  rcases special with rfl | rfl | rfl <;> decide

namespace Disk

theorem walk_cons (disk : Disk) (here : Location) (piece : List UInt8) (rest : List (List UInt8)) :
    disk.walk here (piece :: rest) =
      match disk.get? here with
      | none => .error .notFound
      | some .directory =>
        if piece.length ≤ 255 then
          disk.walk (nextLocation here piece) rest
        else .error .nameTooLong
      | some _ => .error .notADirectory := by
  rw [walk]
  rcases disk.get? here with _ | entry
  · rfl
  cases entry with
  | file contents executable => rfl
  | sink => rfl
  | link target => rfl
  | directory =>
    dsimp only
    by_cases neutral : piece = [] ∨ piece = [dotByte]
    · have short : IsShort piece := isShort_special (neutral.imp_right .inl)
      rw [if_pos neutral, if_pos short, nextLocation, if_pos neutral]
    by_cases up : piece = [dotByte, dotByte]
    · have short : IsShort piece := isShort_special (.inr (.inr up))
      rw [if_neg neutral, if_pos up, if_pos short, nextLocation, if_neg neutral, if_pos up]
    · rw [if_neg neutral, if_neg up, nextLocation, if_neg neutral, if_neg up]
      split <;> split <;> first | rfl | omega

theorem walk_eq_ok_iff (disk : Disk) (here location : Location) (parts : List (List UInt8)) :
    disk.walk here parts = .ok location ↔
      (∀ directory ∈ passed here parts, disk.get? directory = some .directory) ∧
      (∀ piece ∈ parts, IsShort piece) ∧ destination here parts = location := by
  induction parts generalizing here with
  | nil => simp [walk, passed, destination]
  | cons piece rest ih =>
    rw [walk_cons]
    cases stands : disk.get? here with
    | none => simp [passed, stands]
    | some entry =>
      cases entry with
      | file contents executable => simp [passed, stands]
      | sink => simp [passed, stands]
      | link target => simp [passed, stands]
      | directory =>
        by_cases short : IsShort piece
        · simp [passed, destination, stands, short, ih]
        · simp [short]

theorem walk_append (disk : Disk) (here location : Location) (front back : List (List UInt8)) :
    disk.walk here (front ++ back) = .ok location ↔
      ∃ middle, disk.walk here front = .ok middle ∧ disk.walk middle back = .ok location := by
  simp only [walk_eq_ok_iff, passed_append, destination_append, List.forall_mem_append]
  constructor
  · rintro ⟨⟨early, late⟩, ⟨short, shortToo⟩, leads⟩
    exact ⟨_, ⟨early, short, rfl⟩, late, shortToo, leads⟩
  · rintro ⟨_, ⟨early, short, rfl⟩, late, shortToo, leads⟩
    exact ⟨⟨early, late⟩, ⟨short, shortToo⟩, leads⟩

end Disk

end FragmentBuild
