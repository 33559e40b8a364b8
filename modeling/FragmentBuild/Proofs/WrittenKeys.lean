import FragmentBuild.Manifest
import FragmentBuild.Proofs.WrittenTexts
import FragmentBuild.Toml.Reader

/-! Written keys, read back. A key of an inline table always reads back. A key of a section is
written as a text is, which may take several lines; main statement: it reads back if and only if
it does not. -/
namespace FragmentBuild

def Stops (test : Char → Bool) (rest : List Char) : Prop := ∀ c ∈ rest.head?, test c = false

theorem Stops.cons (fails : test c = false) (rest : List Char) : Stops test (c :: rest) := by
  rintro d ⟨⟩
  exact fails

theorem takeWhile_append_of_stops (word : List Char) (all : ∀ c ∈ word, test c = true)
    (stops : Stops test rest) : (word ++ rest).takeWhile test = word := by
  rw [List.takeWhile_append_of_pos all]
  cases rest with
  | nil => simp
  | cons c rest => simp [stops c rfl]

theorem dropWhile_append_of_stops (word : List Char) (all : ∀ c ∈ word, test c = true)
    (stops : Stops test rest) : (word ++ rest).dropWhile test = rest := by
  rw [List.dropWhile_append_of_pos all]
  cases rest with
  | nil => rfl
  | cons c rest => simp [stops c rfl]

namespace Toml

def StartsKey (c : Char) : Prop := isBareKeyChar c = true ∨ c = '"' ∨ c = '\''

theorem StartsKey.ne (starts : StartsKey c) (other : ¬ StartsKey d) : c ≠ d := by
  rintro rfl
  exact other starts

instance (c : Char) : Decidable (StartsKey c) := inferInstanceAs (Decidable (_ ∨ _))

theorem isBareKey_iff (key : List Char) :
    isBareKey key = true ↔ key ≠ [] ∧ ∀ c ∈ key, isBareKeyChar c = true := by
  simp [isBareKey]

theorem readKey_bare (key rest : List Char) (bare : isBareKey key = true)
    (ends : Stops isBareKeyChar rest) : readKey (key ++ rest) = some (String.ofList key, rest) := by
  obtain ⟨full, chars⟩ := (isBareKey_iff key).mp bare
  have front := takeWhile_append_of_stops key chars ends
  have back := dropWhile_append_of_stops key chars ends
  match key, full with
  | c :: key, _ =>
    have first := chars c List.mem_cons_self
    rw [readKey, front, back]
    · rfl
    · intro more same
      rw [(List.cons.inj same).1] at first
      cases first
    · intro more same
      rw [(List.cons.inj same).1] at first
      cases first

theorem readKey_basic (key rest : List Char) :
    readKey (TextForm.basic.write key ++ rest) = some (String.ofList key, rest) := by
  simp [TextForm.write, readKey, readBasic_writeBasic]

theorem readKey_literal (key rest : List Char)
    (plain : ∀ c ∈ key, isPlain c = true ∧ c ≠ '\'') :
    readKey (TextForm.literal.write key ++ rest) = some (String.ofList key, rest) := by
  simp [TextForm.write, readKey, readLiteral_append key rest plain]

/-! ### Keys of inline tables -/

/-- Keys of inline tables stay on their line, and literal ones need no escapes. -/
theorem chooseForKey_cases (key : List Char) :
    TextForm.chooseForKey key = .basic ∨
      TextForm.chooseForKey key = .literal ∧ ∀ c ∈ key, isPlain c = true ∧ c ≠ '\'' := by
  simp only [TextForm.chooseForKey]
  split
  · exact .inl rfl
  split
  · next literal =>
    have facts : (key.any fun c => isControl c || c == '\n') = false ∧ '\'' ∉ key := by
      simpa using literal
    refine .inr ⟨rfl, fun c member => ⟨?_, ?_⟩⟩
    · have tame : isControl c = false ∧ c ≠ '\n' := by
        simpa using List.any_eq_false.mp facts.1 c member
      exact (isPlain_of_not_isControl c tame.1).resolve_right tame.2
    · rintro rfl
      exact facts.2 member
  · exact .inl rfl

theorem readKey_writeInlineKey (key rest : List Char) (ends : Stops isBareKeyChar rest) :
    readKey (writeInlineKey key ++ rest) = some (String.ofList key, rest) := by
  rw [writeInlineKey]
  split
  · next bare => exact readKey_bare key rest bare ends
  · rcases chooseForKey_cases key with basic | ⟨literal, plain⟩
    · rw [basic]
      exact readKey_basic key rest
    · rw [literal]
      exact readKey_literal key rest plain

theorem write_eq_cons (form : TextForm) (text : List Char) :
    ∃ c rest, form.write text = c :: rest ∧ (c = '"' ∨ c = '\'') := by
  cases form with
  | basic => exact ⟨'"', _, rfl, .inl rfl⟩
  | literal => exact ⟨'\'', _, rfl, .inr rfl⟩
  | basicLines => exact ⟨'"', _, rfl, .inl rfl⟩
  | literalLines => exact ⟨'\'', _, rfl, .inr rfl⟩

theorem bareKey_eq_cons (key : List Char) (bare : isBareKey key = true) :
    ∃ c rest, key = c :: rest ∧ isBareKeyChar c = true := by
  obtain ⟨full, chars⟩ := (isBareKey_iff key).mp bare
  match key, full with
  | c :: key, _ => exact ⟨c, key, rfl, chars c List.mem_cons_self⟩

theorem writeInlineKey_eq_cons (key : List Char) :
    ∃ c rest, writeInlineKey key = c :: rest ∧ StartsKey c := by
  rw [writeInlineKey]
  split
  · next bare =>
    obtain ⟨c, rest, shape, starts⟩ := bareKey_eq_cons key bare
    exact ⟨c, rest, shape, .inl starts⟩
  · obtain ⟨c, rest, shape, mark⟩ := write_eq_cons (TextForm.chooseForKey key) key
    exact ⟨c, rest, shape, .inr mark⟩

theorem skipWhite_of_not_isWhite (black : isWhite c = false) (rest : List Char) :
    skipWhite (c :: rest) = c :: rest := by
  simp [skipWhite, black]

theorem not_isWhite_of_startsKey (starts : StartsKey c) : isWhite c = false := by
  have space := starts.ne (by decide : ¬ StartsKey ' ')
  have tab := starts.ne (by decide : ¬ StartsKey '\t')
  simp [isWhite, space, tab]

theorem readPath_single (starts : StartsKey c) (reads : readKey (c :: text) = some (key, rest))
    (follows : skipWhite rest = d :: more) (single : d ≠ '.') :
    readPath nestingLimit (c :: text) = some (⟨[], key⟩, d :: more) := by
  show readPath (78 + 1) (c :: text) = _
  rw [readPath, skipWhite_of_not_isWhite (not_isWhite_of_startsKey starts), reads]
  simp [follows, single]

end Toml

namespace Manifest

open Toml

/-- A key that its written form keeps on one line: it has no newline and, unless it has a control
character, either no apostrophe or neither a quote nor a backslash or so many marks in a row that
only escapes help. -/
def KeepsLine (key : List Char) : Prop :=
  '\n' ∉ key ∧
    (key.any isControl = true ∨ '\'' ∉ key ∨ '\\' ∉ key ∧ '"' ∉ key ∨
      List.replicate 3 '\'' <:+: key ∧ ('\\' ∈ key ∨ List.replicate 3 '"' <:+: key))

instance (key : List Char) : Decidable (KeepsLine key) := inferInstanceAs (Decidable (_ ∧ _))

theorem keepsLine_iff (key : List Char) :
    KeepsLine key ↔ TextForm.choose key = .basic ∨ TextForm.choose key = .literal := by
  have quotes : List.replicate 3 '"' <:+: key ↔ ¬ longestRow '"' key ≤ 2 := by
    rw [← le_longestRow_iff]
    omega
  have apostrophes : List.replicate 3 '\'' <:+: key ↔ ¬ longestRow '\'' key ≤ 2 := by
    rw [← le_longestRow_iff]
    omega
  rw [KeepsLine, quotes, apostrophes, choose_eq]
  cases control : key.any isControl
  all_goals
    by_cases newline : '\n' ∈ key
    all_goals split_ifs
    all_goals simp_all
    all_goals tauto

theorem keepsLine_of_isBareKey (key : List Char) (bare : isBareKey key = true) :
    KeepsLine key := by
  obtain ⟨-, chars⟩ := (isBareKey_iff key).mp bare
  have apart (c : Char) (other : isBareKeyChar c = false) : c ∉ key := by
    intro member
    rw [chars c member] at other
    cases other
  exact ⟨apart '\n' (by decide), .inr (.inl (apart '\'' (by decide)))⟩

theorem writeKey_eq_cons (key : List Char) : ∃ c rest, writeKey key = c :: rest ∧ StartsKey c := by
  rw [writeKey]
  split
  · next bare =>
    obtain ⟨c, rest, shape, starts⟩ := bareKey_eq_cons key bare
    exact ⟨c, rest, shape, .inl starts⟩
  · obtain ⟨c, rest, shape, mark⟩ := write_eq_cons (TextForm.choose key) key
    exact ⟨c, rest, shape, .inr mark⟩

theorem readKey_writeKey (key rest : List Char) (keeps : KeepsLine key)
    (ends : Stops isBareKeyChar rest) :
    readKey (writeKey key ++ rest) = some (String.ofList key, rest) := by
  rw [writeKey]
  split
  · next bare => exact readKey_bare key rest bare ends
  · rw [writeText]
    rcases (keepsLine_iff key).mp keeps with basic | literal
    · rw [basic]
      exact readKey_basic key rest
    · rw [literal]
      exact readKey_literal key rest (plain_of_choose_literal key literal)

/-- A key that takes several lines is read as an empty key in front of a mark. -/
theorem readKey_writeKey_of_not_keepsLine (key rest : List Char) (breaks : ¬ KeepsLine key) :
    ∃ mark more, (mark = '"' ∨ mark = '\'') ∧
      readKey (writeKey key ++ rest) = some ("", mark :: more) := by
  rw [writeKey, if_neg fun bare => breaks (keepsLine_of_isBareKey key bare), writeText]
  cases chosen : TextForm.choose key with
  | basic => exact absurd ((keepsLine_iff key).mpr (.inl chosen)) breaks
  | literal => exact absurd ((keepsLine_iff key).mpr (.inr chosen)) breaks
  | basicLines =>
    refine ⟨'"', openingLine key ++ writeBasicLines 0 key ++ ['"', '"', '"'] ++ rest, .inl rfl, ?_⟩
    simp [TextForm.write, readKey, readBasic]
  | literalLines =>
    refine ⟨'\'', openingLine key ++ key ++ ['\'', '\'', '\''] ++ rest, .inr rfl, ?_⟩
    simp [TextForm.write, readKey, readLiteral]

/-- A section key reads back if and only if it keeps to one line. -/
theorem readKey_writeKey_iff (key rest : List Char) (ends : Stops isBareKeyChar rest) :
    readKey (writeKey key ++ rest) = some (String.ofList key, rest) ↔ KeepsLine key := by
  constructor
  · intro reads
    by_contra breaks
    obtain ⟨mark, more, -, empty⟩ := readKey_writeKey_of_not_keepsLine key rest breaks
    rw [empty] at reads
    have none : key = [] := by
      simpa using (congrArg Prod.fst (Option.some.inj reads)).symm
    subst none
    exact breaks (by decide)
  · intro keeps
    exact readKey_writeKey key rest keeps ends

end Manifest

end FragmentBuild
