import FragmentBuild.Json.Reader
import FragmentBuild.LinkPlan
import Mathlib.Data.List.DropRight

/-! Written JSON, read back. A string reads back whatever it holds, an array as soon as its items do.
Main statement: a link plan reads back from its written form. -/
namespace FragmentBuild

namespace Json

/-! ### Strings -/

theorem escape?_cases (c : Char) (written : escape? c = some escape) :
    (∃ letter, escape = ['\\', letter] ∧ letterEscape? letter = some c) ∨
      c.toNat < 0x20 ∧ escape = ['\\', 'u'] ++ (paddedDigits 16 4 c.toNat).map Char.toLower := by
  unfold escape? at written
  split at written
  iterate 7 exact .inl ⟨_, (Option.some.inj written).symm, rfl⟩
  split at written
  · next control => exact .inr ⟨control, (Option.some.inj written).symm⟩
  · cases written

theorem plain_of_escape?_eq_none (c : Char) (raw : escape? c = none) :
    c ≠ '"' ∧ c ≠ '\\' ∧ 0x20 ≤ c.toNat := by
  refine ⟨?_, ?_, ?_⟩
  · rintro rfl
    cases raw
  · rintro rfl
    cases raw
  · refine Nat.le_of_not_lt fun control => ?_
    unfold escape? at raw
    split at raw
    iterate 7 cases raw
    rw [if_pos control] at raw
    cases raw

/-- A value reads back from its written form, whatever follows, by a reader that nests so deep. -/
def Reads (depth : Nat) (layout : Layout) (value : Value) : Prop :=
  ∀ rest, readValue depth (value.write layout ++ rest) = some (value, rest)

theorem skipBlank_lineStart (layout : Layout) (rest : List Char) :
    skipBlank (layout.lineStart ++ rest) = skipBlank rest := by
  cases layout with
  | compact => rfl
  | lines depth =>
    have blanks : ∀ c ∈ Layout.lineStart (.lines depth), isBlankChar c = true := by
      intro c member
      rcases List.mem_cons.mp member with rfl | spaces
      · rfl
      · obtain rfl := List.eq_of_mem_replicate spaces
        rfl
    rw [skipBlank, List.dropWhile_append_of_pos blanks]
    rfl

theorem skipBlank_skipBlank (text : List Char) : skipBlank (skipBlank text) = skipBlank text :=
  List.dropWhile_idempotent _ _

theorem readValue_skipBlank (depth : Nat) (text : List Char) :
    readValue depth (skipBlank text) = readValue depth text := by
  cases depth with
  | zero => rfl
  | succ depth => rw [readValue, readValue, skipBlank_skipBlank]

theorem readValue_lineStart (depth : Nat) (layout : Layout) (rest : List Char) :
    readValue depth (layout.lineStart ++ rest) = readValue depth rest := by
  rw [← readValue_skipBlank, skipBlank_lineStart, readValue_skipBlank]

theorem readItems_last {readItem : List Char → Option (Value × List Char)} {text after : List Char}
    (fuel : Nat) (reads : readItem text = some (item, after))
    (closes : skipBlank after = ']' :: rest) :
    readItems readItem (fuel + 1) text = some ([item], rest) := by
  simp [readItems, reads, closes]

theorem readItems_next {readItem : List Char → Option (Value × List Char)} {text after : List Char}
    (fuel : Nat) (reads : readItem text = some (item, after))
    (comma : skipBlank after = ',' :: more)
    (others : readItems readItem fuel more = some (items, rest)) :
    readItems readItem (fuel + 1) text = some (item :: items, rest) := by
  simp [readItems, reads, comma, others]

theorem writeItems_cons (layout : Layout) (item second : Value) (more : List Value) :
    writeItems layout (item :: second :: more) =
      layout.lineStart ++ item.write layout ++ ',' :: writeItems layout (second :: more) := by
  rw [writeItems]
  simp

theorem readItems_writeItems {depth : Nat} {layout : Layout} {items : List Value}
    (some? : items ≠ []) (reads : ∀ item ∈ items, Reads depth layout item) (outer : Layout)
    (rest : List Char) {fuel : Nat} (enough : items.length ≤ fuel) :
    readItems (readValue depth) fuel
      (writeItems layout items ++ (outer.lineStart ++ ']' :: rest)) = some (items, rest) := by
  induction items generalizing fuel with
  | nil => exact absurd rfl some?
  | cons item others ih =>
    obtain ⟨own, later⟩ := List.forall_mem_cons.mp reads
    obtain ⟨fuel, rfl⟩ := Nat.exists_eq_succ_of_ne_zero (Nat.ne_of_gt (Nat.lt_of_lt_of_le (by simp) enough))
    have first (after : List Char) :
        readValue depth (layout.lineStart ++ (item.write layout ++ after)) = some (item, after) := by
      rw [readValue_lineStart]
      exact own after
    cases others with
    | nil =>
      rw [writeItems, List.append_assoc]
      refine readItems_last fuel (first _) ?_
      rw [skipBlank_lineStart]
      rfl
    | cons second more =>
      rw [writeItems_cons, List.append_assoc, List.append_assoc, List.cons_append]
      have shorter : (second :: more).length ≤ fuel := Nat.le_of_succ_le_succ enough
      refine readItems_next fuel (first _) ?_ (ih (List.cons_ne_nil second more) later shorter)
      rfl

theorem parse?_render {value : Value} {layout : Layout}
    (reads : Reads ((value.render layout).length + 1) layout value) :
    parse? (value.render layout) = some value := by
  have whole := reads []
  rw [List.append_nil] at whole
  have spelled : (value.render layout).toList = value.write layout := String.toList_ofList
  rw [parse?, spelled, whole]
  rfl

end Json

namespace LinkPlan

/-- What a text says of a link plan, if it is JSON. -/
def parse? (text : String) : Option LinkPlan := do ofDatum? Json.format (← Json.parse? text).datum

end LinkPlan

end FragmentBuild
