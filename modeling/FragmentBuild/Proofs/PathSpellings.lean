import FragmentBuild.Proofs.PathPieces
import Mathlib.Logic.Relation

/-! What may be left out of a path without changing it. Main statement: paths are the same exactly
if one is turned into the other by leaving out, and putting back, repeated slashes, a slash at the
end, and single dots behind a slash. -/
namespace FragmentBuild

/-- One slash, or one dot with its slash, is left out of a path. -/
inductive Shortens : List UInt8 → List UInt8 → Prop
  | slashes (front back : List UInt8) :
      Shortens (front ++ slashByte :: slashByte :: back) (front ++ slashByte :: back)
  | ending (front : List UInt8) (rooted : front ≠ []) : Shortens (front ++ [slashByte]) front
  | dot (front back : List UInt8) :
      Shortens (front ++ slashByte :: dotByte :: slashByte :: back) (front ++ slashByte :: back)
  | lastDot (front : List UInt8) : Shortens (front ++ [slashByte, dotByte]) (front ++ [slashByte])

/-- Steps that leave something out, and steps back, lead from one spelling to the other. -/
abbrev SpelledAlike : List UInt8 → List UInt8 → Prop := Relation.EqvGen Shortens

def behindSlashes (parts : List (List UInt8)) : List UInt8 := parts.flatMap (slashByte :: ·)

@[simp] theorem behindSlashes_nil : behindSlashes [] = [] := rfl

theorem behindSlashes_cons (piece : List UInt8) (rest : List (List UInt8)) :
    behindSlashes (piece :: rest) = slashByte :: (piece ++ behindSlashes rest) := rfl

theorem behindSlashes_ne_nil (rest : List (List UInt8)) (more : rest ≠ []) :
    ∃ tail, behindSlashes rest = slashByte :: tail := by
  obtain ⟨piece, later, rfl⟩ := List.exists_cons_of_ne_nil more
  exact ⟨_, behindSlashes_cons piece later⟩

theorem append_behindSlashes_of_pieces (shape : pieces text = piece :: rest) :
    piece ++ behindSlashes rest = text := by
  induction text generalizing piece rest with
  | nil =>
    obtain ⟨rfl, rfl⟩ := List.cons.inj shape
    rfl
  | cons c tail ih =>
    obtain ⟨first, more, split⟩ := List.exists_cons_of_ne_nil (pieces_ne_nil tail)
    by_cases slash : c = slashByte
    · rw [pieces, if_pos slash, split] at shape
      obtain ⟨rfl, rfl⟩ := List.cons.inj shape
      rw [List.nil_append, behindSlashes_cons, ih split, slash]
    · rw [pieces, if_neg slash, split] at shape
      obtain ⟨rfl, rfl⟩ := List.cons.inj shape
      rw [List.cons_append, ih split]

theorem eq_nil_or_dot_of_not_leadsOn (neutral : leadsOn piece = false) :
    piece = [] ∨ piece = [dotByte] := by
  simpa [leadsOn, or_iff_not_imp_left] using neutral

/-- A piece that does not lead on may be left out, unless it is all there is behind a root. -/
theorem SpelledAlike.dropped (neutral : leadsOn piece = false) (front : List UInt8)
    (rest : List (List UInt8)) (more : front ≠ [] ∨ rest ≠ []) :
    SpelledAlike (front ++ behindSlashes (piece :: rest)) (front ++ behindSlashes rest) := by
  have kinds := eq_nil_or_dot_of_not_leadsOn neutral
  rw [behindSlashes_cons]
  by_cases last : rest = []
  · obtain rfl := last
    have slash : SpelledAlike (front ++ [slashByte]) front :=
      .rel _ _ (.ending front (more.resolve_right (absurd rfl)))
    rw [behindSlashes_nil, List.append_nil, List.append_nil]
    rcases kinds with rfl | rfl
    · exact slash
    · exact .trans _ _ _ (.rel _ _ (.lastDot front)) slash
  · obtain ⟨tail, shape⟩ := behindSlashes_ne_nil rest last
    rw [shape]
    rcases kinds with rfl | rfl
    · exact .rel _ _ (.slashes front tail)
    · exact .rel _ _ (.dot front tail)

theorem SpelledAlike.filtered (front : List UInt8) (some : front ≠ []) (rest : List (List UInt8)) :
    SpelledAlike (front ++ behindSlashes rest) (front ++ behindSlashes (rest.filter leadsOn)) := by
  induction rest generalizing front with
  | nil => exact .refl _
  | cons piece rest ih =>
    cases leads : leadsOn piece with
    | false =>
      rw [List.filter_cons_of_neg (by simp [leads])]
      exact .trans _ _ _ (dropped leads front rest (.inl some)) (ih front some)
    | true =>
      rw [List.filter_cons_of_pos leads, behindSlashes_cons, behindSlashes_cons]
      have longer := ih (front ++ slashByte :: piece) (by simp)
      simpa using longer

/-- A path from the root down, of which the root stays if nothing else does. -/
def Path.fromRoot (named : List (List UInt8)) : List UInt8 :=
  if named = [] then [slashByte] else behindSlashes named

theorem SpelledAlike.fromRoot_filtered (rest : List (List UInt8)) (some : rest ≠ []) :
    SpelledAlike (behindSlashes rest) (Path.fromRoot (rest.filter leadsOn)) := by
  induction rest with
  | nil => exact absurd rfl some
  | cons piece rest ih =>
    cases leads : leadsOn piece with
    | true =>
      have longer := filtered (slashByte :: piece) (List.cons_ne_nil _ _) rest
      rw [List.filter_cons_of_pos leads, Path.fromRoot, if_neg (List.cons_ne_nil _ _)]
      exact longer
    | false =>
      rw [List.filter_cons_of_neg (by simp [leads])]
      by_cases last : rest = []
      · obtain rfl := last
        rcases eq_nil_or_dot_of_not_leadsOn leads with rfl | rfl
        · exact .refl _
        · exact .rel _ _ (.lastDot [])
      · exact .trans _ _ _ (dropped leads [] rest (.inr last)) (ih last)

namespace Path

/-- How a path is written from the texts of its components. -/
def written : List (List UInt8) → List UInt8
  | [] => []
  | first :: named => if first = [slashByte] then fromRoot named else first ++ behindSlashes named

theorem pieces_of_isAbsolute (path : Path) (absolute : path.isAbsolute = true) :
    ∃ tail, pieces path.text.toList = [] :: pieces tail := by
  cases whole : path.text.toList with
  | nil => simp [isAbsolute, whole] at absolute
  | cons c tail =>
    obtain rfl : c = slashByte := by simpa [isAbsolute, whole] using absolute
    exact ⟨tail, rfl⟩

theorem map_text_components (path : Path) (shape : pieces path.text.toList = piece :: rest) :
    path.components.map (fun component => component.text.toList) =
      (if path.isAbsolute then [[slashByte]] else if piece = [] then [] else [piece]) ++
        rest.filter leadsOn := by
  cases absolute : path.isAbsolute with
  | true =>
    obtain ⟨tail, split⟩ := path.pieces_of_isAbsolute absolute
    obtain ⟨rfl, rfl⟩ := List.cons.inj (shape.symm.trans split)
    rw [path.components_of_absolute absolute, List.map_cons, map_text_filterMap, split]
    rfl
  | false =>
    have named := map_text_filterMap (piece :: rest)
    rw [components, absolute, shape, List.head?_cons, if_neg Bool.false_ne_true,
      if_neg Bool.false_ne_true]
    by_cases dot : piece = [dotByte]
    · obtain rfl := dot
      rw [if_pos rfl, if_neg (List.cons_ne_nil _ _), List.map_cons, named]
      rfl
    · rw [if_neg (by simpa using dot), named]
      by_cases empty : piece = []
      · rw [if_pos empty, List.filter_cons_of_neg (by simp [empty, leadsOn])]
        rfl
      · rw [if_neg empty, List.filter_cons_of_pos (by simp [leadsOn, empty, dot])]
        rfl

/-- A path may be written from its components. -/
theorem spelledAlike_written (path : Path) :
    SpelledAlike path.text.toList
      (written (path.components.map fun component => component.text.toList)) := by
  obtain ⟨piece, rest, shape⟩ := List.exists_cons_of_ne_nil (pieces_ne_nil path.text.toList)
  have whole := append_behindSlashes_of_pieces shape
  rw [map_text_components path shape]
  cases absolute : path.isAbsolute with
  | true =>
    obtain ⟨tail, split⟩ := path.pieces_of_isAbsolute absolute
    obtain ⟨rfl, rfl⟩ := List.cons.inj (shape.symm.trans split)
    rw [← whole]
    exact SpelledAlike.fromRoot_filtered _ (pieces_ne_nil tail)
  | false =>
    rw [if_neg Bool.false_ne_true, ← whole]
    by_cases empty : piece = []
    · obtain rfl := empty
      have alone : rest = [] := by
        by_contra more
        obtain ⟨tail, start⟩ := behindSlashes_ne_nil rest more
        rw [List.nil_append, start] at whole
        simp [isAbsolute, ← whole] at absolute
      obtain rfl := alone
      exact .refl _
    · have plain : piece ≠ [slashByte] := by
        rintro rfl
        exact slash_notMem_pieces path.text.toList (shape ▸ List.mem_cons_self)
          List.mem_cons_self
      rw [if_neg empty, List.singleton_append, written, if_neg plain]
      exact SpelledAlike.filtered piece empty rest

theorem components_eq_of_pieces {path other : Path}
    (start : path.text.toList.head? = other.text.toList.head?)
    (shape : pieces path.text.toList = piece :: rest)
    (shape' : pieces other.text.toList = piece :: rest')
    (same : rest.filterMap Component.ofPiece? = rest'.filterMap Component.ofPiece?) :
    path.components = other.components := by
  have absolute : path.isAbsolute = other.isAbsolute := congrArg (· == some slashByte) start
  simp only [components, absolute, shape, shape', List.filterMap_cons, List.head?_cons, same]

theorem components_eq_of_slash {path other : Path} {front back back' : List UInt8}
    (whole : path.text.toList = front ++ slashByte :: back)
    (whole' : other.text.toList = front ++ slashByte :: back')
    (same : (pieces back).filterMap Component.ofPiece? =
      (pieces back').filterMap Component.ofPiece?) :
    path.components = other.components := by
  obtain ⟨piece, rest, shape⟩ := List.exists_cons_of_ne_nil (pieces_ne_nil front)
  have behind (text : List UInt8) :
      pieces (front ++ slashByte :: text) = piece :: (rest ++ pieces text) := by
    rw [pieces_append_slash, shape, List.cons_append]
  refine components_eq_of_pieces ?_ (whole ▸ behind back) (whole' ▸ behind back') ?_
  · rw [whole, whole']
    cases front <;> rfl
  · rw [List.filterMap_append, List.filterMap_append, same]

theorem components_eq_of_shortens {path other : Path}
    (shorter : Shortens path.text.toList other.text.toList) :
    path.components = other.components := by
  generalize whole : path.text.toList = text at shorter
  generalize whole' : other.text.toList = text' at shorter
  cases shorter with
  | slashes front back => exact components_eq_of_slash whole whole' rfl
  | dot front back => exact components_eq_of_slash whole whole' rfl
  | lastDot front => exact components_eq_of_slash whole whole' rfl
  | ending front rooted =>
    obtain ⟨piece, rest, shape⟩ := List.exists_cons_of_ne_nil (pieces_ne_nil text')
    have shape' : pieces path.text.toList = piece :: (rest ++ [[]]) := by
      rw [whole, pieces_append_slash, shape]
      rfl
    refine components_eq_of_pieces ?_ shape' (whole' ▸ shape) ?_
    · rw [whole, whole']
      cases text' with
      | nil => exact absurd rfl rooted
      | cons c rest => rfl
    · rw [List.filterMap_append]
      exact List.append_nil _

theorem components_eq_of_spelledAlike {text other : List UInt8} (alike : SpelledAlike text other) :
    (Path.mk ⟨text⟩).components = (Path.mk ⟨other⟩).components := by
  induction alike with
  | rel text other shorter => exact components_eq_of_shortens shorter
  | refl text => rfl
  | symm _ _ _ ih => exact ih.symm
  | trans _ _ _ _ _ ih ih' => exact ih.trans ih'

theorem same_iff {path other : Path} :
    path.same other = true ↔ path.components = other.components := beq_iff_eq

/-- Paths are the same exactly if they are spelled alike. -/
theorem same_iff_spelledAlike (path other : Path) :
    path.same other = true ↔ SpelledAlike path.text.toList other.text.toList := by
  constructor
  · intro same
    have back := other.spelledAlike_written
    rw [← same_iff.mp same] at back
    exact .trans _ _ _ path.spelledAlike_written (.symm _ _ back)
  · intro alike
    exact same_iff.mpr (components_eq_of_spelledAlike alike)

end Path

end FragmentBuild
