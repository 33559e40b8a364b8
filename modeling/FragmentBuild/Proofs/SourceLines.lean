import Mathlib.Algebra.Ring.Nat
import FragmentBuild.Job

/-! The lines of a source text. Main statement: every fragment stands on lines of its own, whose
numbers follow from the fragments before it, and the text has no other lines. -/
namespace FragmentBuild

/-- How many lines a fragment takes: one more than it has newlines. -/
def lineCount (fragment : String) : Nat := 1 + fragment.toList.count '\n'

/-- The line on which a fragment starts, lines being counted from zero: the first one behind the
lines of the fragments before it. -/
def firstLine (fragments : List String) (place : Nat) : Nat :=
  ((fragments.take place).map lineCount).sum

/-- A part of a text starts with a certain line and ends at a newline. -/
def StandsOnLines (text part : List Char) (line : Nat) : Prop :=
  ∃ front back, text = front ++ part ++ '\n' :: back ∧ (front = [] ∨ front.getLast? = some '\n') ∧
    front.count '\n' = line

/-- The lines of a text that a newline closes. -/
def closedLines (text : String) : List String :=
  (text.toList.splitOn '\n').dropLast.map String.ofList

@[simp] theorem toList_sourceText (fragments : List String) :
    (sourceText fragments).toList = sourceLines fragments := String.toList_ofList

theorem sourceLines_cons (fragment : String) (rest : List String) :
    sourceLines (fragment :: rest) = fragment.toList ++ '\n' :: sourceLines rest := by
  simp [sourceLines]

theorem count_sourceLines (fragments : List String) :
    (sourceLines fragments).count '\n' = (fragments.map lineCount).sum := by
  induction fragments with
  | nil => rfl
  | cons fragment rest ih =>
    rw [sourceLines_cons, List.count_append, List.count_cons_self, ih, List.map_cons,
      List.sum_cons, lineCount]
    omega

theorem sourceLines_closed (fragments : List String) :
    sourceLines fragments = [] ∨ (sourceLines fragments).getLast? = some '\n' := by
  rcases List.eq_nil_or_concat fragments with rfl | ⟨front, last, rfl⟩
  · exact .inl rfl
  · refine .inr ?_
    rw [List.concat_eq_append, sourceLines_append, sourceLines_cons, List.getLast?_append,
      List.getLast?_append]
    rfl

theorem standsOnLines_sourceLines {fragments : List String} {place : Nat} {fragment : String}
    (listed : fragments[place]? = some fragment) :
    StandsOnLines (sourceLines fragments) fragment.toList (firstLine fragments place) := by
  refine ⟨sourceLines (fragments.take place), sourceLines (fragments.drop (place + 1)), ?_,
    sourceLines_closed _, count_sourceLines _⟩
  obtain ⟨within, same⟩ := List.getElem?_eq_some_iff.mp listed
  have split : fragments = fragments.take place ++ fragment :: fragments.drop (place + 1) := by
    rw [← same, ← List.drop_eq_getElem_cons within, List.take_append_drop]
  calc sourceLines fragments
      = sourceLines (fragments.take place ++ fragment :: fragments.drop (place + 1)) :=
        congrArg sourceLines split
    _ = _ := by rw [sourceLines_append, sourceLines_cons, List.append_assoc]

/-- Cut at its newlines, a source text is the lines of its fragments, and nothing follows the
last newline. -/
theorem splitOn_sourceLines (fragments : List String) :
    (sourceLines fragments).splitOn '\n' =
      fragments.flatMap (fun fragment => fragment.toList.splitOn '\n') ++ [[]] := by
  induction fragments with
  | nil => rfl
  | cons fragment rest ih =>
    have parts : (fragment.toList ++ '\n' :: sourceLines rest).splitOn '\n' =
        fragment.toList.splitOn '\n' ++ (sourceLines rest).splitOn '\n' :=
      List.splitOnP_append_cons _ _ rfl
    rw [sourceLines_cons, parts, ih, List.flatMap_cons, List.append_assoc]

theorem splitOn_plain {fragments : List String}
    (plain : ∀ fragment ∈ fragments, '\n' ∉ fragment.toList) :
    fragments.flatMap (fun fragment => fragment.toList.splitOn '\n') =
      fragments.map String.toList := by
  induction fragments with
  | nil => rfl
  | cons fragment rest ih =>
    have whole : fragment.toList.splitOn '\n' = [fragment.toList] := by
      refine List.splitOnP_eq_singleton fun c inside => beq_eq_false_iff_ne.mpr ?_
      rintro rfl
      exact plain fragment List.mem_cons_self inside
    rw [List.flatMap_cons, whole, ih fun other later => plain other (List.mem_cons_of_mem _ later)]
    rfl

theorem closedLines_sourceText {fragments : List String}
    (plain : ∀ fragment ∈ fragments, '\n' ∉ fragment.toList) :
    closedLines (sourceText fragments) = fragments := by
  rw [closedLines, toList_sourceText, splitOn_sourceLines, splitOn_plain plain,
    List.dropLast_concat, List.map_map]
  exact List.map_id'' (fun _ => String.ofList_toList) fragments

/-- Every fragment stands on the lines behind those of the fragments before it, and these are
all the lines of the text; texts of lists join as the lists do; fragments of one line each are
read back from their text. The text that a unit is built from is the one of its fragments. -/
theorem source_keeps_fragments :
    (∀ fragments : List String,
      (∀ (place : Nat) (fragment : String), fragments[place]? = some fragment →
        StandsOnLines (sourceText fragments).toList fragment.toList (firstLine fragments place)) ∧
      (sourceText fragments).toList.splitOn '\n' =
        fragments.flatMap (fun fragment => fragment.toList.splitOn '\n') ++ [[]] ∧
      (sourceText fragments).toList.count '\n' = firstLine fragments fragments.length) ∧
    (∀ first second : List String,
      sourceText (first ++ second) = sourceText first ++ sourceText second) ∧
    (∀ fragments : List String, (∀ fragment ∈ fragments, '\n' ∉ fragment.toList) →
      closedLines (sourceText fragments) = fragments) ∧
    (∀ first second : List String, (∀ fragment ∈ first, '\n' ∉ fragment.toList) →
      (∀ fragment ∈ second, '\n' ∉ fragment.toList) →
      sourceText first = sourceText second → first = second) ∧
    ∀ (state : UnitState) (toolchain : Toolchain) (workRoot : Path),
      (Job.ofState state toolchain workRoot).source = sourceText state.fragments := by
  refine ⟨fun fragments => ⟨fun place fragment listed => ?stands, ?lines, ?count⟩,
    fun first second => ?joined, fun _ => closedLines_sourceText, ?apart, fun _ _ _ => rfl⟩
  case stands =>
    rw [toList_sourceText]
    exact standsOnLines_sourceLines listed
  case lines =>
    rw [toList_sourceText]
    exact splitOn_sourceLines fragments
  case count =>
    rw [toList_sourceText, count_sourceLines, firstLine, List.take_length]
  case joined =>
    rw [sourceText, sourceLines_append, String.ofList_append]
    rfl
  case apart =>
    intro first second plain plain' same
    rw [← closedLines_sourceText plain, same, closedLines_sourceText plain']

/-- A fragment of three lines, an empty one and a repeated one: the fourth starts on line six,
behind a fragment that ends in a newline of its own. -/
theorem source_keeps_repeated_fragments :
    StandsOnLines
      (sourceText ["fn one() \x7b\n  1\n\x7d", "", "mod a;\n", "mod a;", "mod a;"]).toList
      "mod a;".toList 6 ∧
    closedLines (sourceText ["mod a;", "", "mod a;"]) = ["mod a;", "", "mod a;"] ∧
    sourceText ["mod a;", ""] ≠ sourceText ["", "mod a;"] := by
  obtain ⟨fragments, -, read, apart, -⟩ := source_keeps_fragments
  exact ⟨(fragments ["fn one() \x7b\n  1\n\x7d", "", "mod a;\n", "mod a;", "mod a;"]).1 3 _ rfl,
    read _ (by decide), fun same => absurd (apart _ _ (by decide) (by decide) same) (by decide)⟩

end FragmentBuild
