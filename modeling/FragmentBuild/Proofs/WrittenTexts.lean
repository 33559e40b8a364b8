import FragmentBuild.Proofs.WrittenDigits
import FragmentBuild.Toml.Text
import Mathlib.Data.List.Infix

/-! The four written forms of a text, read back. Main statement: whatever form is chosen, reading
gives the text and stops behind the closing mark, as long as no further mark follows it. -/
namespace FragmentBuild.Toml

/-- What follows a text does not start with a mark, which would lengthen the closing one. -/
def StartsPlain (rest : List Char) : Prop := ∀ c ∈ rest.head?, c ≠ '"' ∧ c ≠ '\''

theorem StartsPlain.cons (plain : c ≠ '"' ∧ c ≠ '\'') (rest : List Char) :
    StartsPlain (c :: rest) := by
  rintro d ⟨⟩
  exact plain

theorem isPlain_of_not_isControl (c : Char) (tame : isControl c = false) :
    isPlain c = true ∨ c = '\n' := by
  by_cases newline : c = '\n'
  · exact .inr newline
  · refine .inl ?_
    by_cases tab : c = '\t'
    · simp [isPlain, tab]
    · have facts : ¬ c.toNat ≤ 0x1f ∧ c ≠ '\x7f' := by simpa [isControl, tab, newline] using tame
      have other : c.toNat ≠ 0x7f := by
        intro same
        exact facts.2 (Char.ext (UInt32.toNat_inj.mp same))
      simp only [isPlain, Bool.or_eq_true, Bool.and_eq_true, decide_eq_true_eq, bne_iff_ne]
      exact .inr ⟨by omega, other⟩

/-! ### Escapes -/

theorem escape?_cases (c : Char) (written : escape? c = some escape) :
    (∃ letter, escape = ['\\', letter] ∧ letterEscape? letter = some c) ∨
      escape = ['\\', 'u'] ++ paddedDigits 16 4 c.toNat := by
  unfold escape? at written
  split at written
  · exact .inl ⟨'b', by simpa using written.symm, rfl⟩
  · exact .inl ⟨'t', by simpa using written.symm, rfl⟩
  · exact .inl ⟨'f', by simpa using written.symm, rfl⟩
  · exact .inl ⟨'r', by simpa using written.symm, rfl⟩
  · exact .inl ⟨'\\', by simpa using written.symm, rfl⟩
  · split at written
    · exact .inr (by simpa using written.symm)
    · cases written

theorem plain_of_escape?_eq_none (c : Char) (none : escape? c = none) :
    c ≠ '\\' ∧ c ≠ '\r' ∧ (isPlain c = true ∨ c = '\n') := by
  refine ⟨?_, ?_, isPlain_of_not_isControl c ?_⟩
  · rintro rfl
    cases none
  · rintro rfl
    cases none
  · unfold escape? at none
    split at none
    all_goals simp_all

theorem paddedDigits_code (number : Nat) (small : number < 16 ^ 4) :
    ∃ a b c d, paddedDigits 16 4 number = [a, b, c, d] := by
  have four := length_paddedDigits small (by omega)
  match paddedDigits 16 4 number, four with
  | [a, b, c, d], _ => exact ⟨a, b, c, d, rfl⟩

theorem toNat_lt_of_escape? (c : Char) (written : escape? c = some escape) :
    c.toNat < 16 ^ 4 := by
  unfold escape? at written
  split at written
  iterate 5 decide
  split at written
  · next control =>
    simp only [isControl, Bool.or_eq_true, Bool.and_eq_true, decide_eq_true_eq, beq_iff_eq]
      at control
    rcases control with ⟨⟨low, -⟩, -⟩ | rfl
    · omega
    · decide
  · cases written

theorem letterEscape?_apart (letter : Char) (known : letterEscape? letter = some c) :
    letter ≠ 'u' ∧ letter ≠ 'U' ∧ letter ≠ '\n' ∧ letter ≠ '\r' ∧ isWhite letter = false := by
  refine ⟨?_, ?_, ?_, ?_, ?_⟩
  iterate 4 rintro rfl; cases known
  unfold letterEscape? at known
  split at known
  all_goals first | rfl | cases known

/-! ### Basic texts -/

theorem readBasic_letter (letter : Char) (rest : List Char)
    (known : letterEscape? letter = some c) :
    readBasic ('\\' :: letter :: rest) = withFirst (some c) (readBasic rest) := by
  obtain ⟨short, long, -⟩ := letterEscape?_apart letter known
  rw [readBasic, known]
  all_goals simp [short, long]

theorem readBasic_escape (c : Char) (rest : List Char) (written : escape? c = some escape) :
    readBasic (escape ++ rest) = withFirst (some c) (readBasic rest) := by
  rcases escape?_cases c written with ⟨letter, rfl, known⟩ | rfl
  · exact readBasic_letter letter rest known
  · obtain ⟨a, b, d, e, code⟩ := paddedDigits_code c.toNat (toNat_lt_of_escape? c written)
    have value := hexChar?_paddedDigits c
    rw [code] at value ⊢
    simp [readBasic, value]

theorem readBasic_writeBasic (text rest : List Char) :
    readBasic (writeBasic text ++ '"' :: rest) = some (text, rest) := by
  induction text with
  | nil => simp [writeBasic, readBasic]
  | cons c text ih =>
    rw [writeBasic]
    split
    · next quote =>
      rw [quote]
      rw [List.cons_append, List.cons_append, readBasic_letter '"' _ rfl, ih]
      rfl
    · next quote =>
      split
      · next newline =>
        rw [newline]
        rw [List.cons_append, List.cons_append, readBasic_letter 'n' _ rfl, ih]
        rfl
      · next newline =>
        split
        · next escape written =>
          rw [List.append_assoc, readBasic_escape c _ written, ih]
          rfl
        · next none =>
          obtain ⟨slash, -, plain⟩ := plain_of_escape?_eq_none c none
          have stays : isPlain c = true := plain.resolve_right newline
          rw [List.cons_append, readBasic_plain c _ quote slash stays, ih]
          rfl

/-! ### Basic texts of several lines -/

theorem readBasicLines_quote (rest : List Char) (few : ∀ more, rest ≠ '"' :: '"' :: more) :
    readBasicLines false ('"' :: rest) = withFirst (some '"') (readBasicLines false rest) := by
  rw [readBasicLines]
  · simp [isPlain]
  iterate 3
    intro more _ same
    exact few _ same
  all_goals simp

theorem not_endsLine (c : Char) (rest : List Char) (white : isWhite c = false) (newline : c ≠ '\n')
    (carriage : c ≠ '\r') : endsLine (c :: rest) = false := by
  simp [endsLine, white, afterNewline?, newline, carriage]

theorem readBasicLines_letter (letter : Char) (rest : List Char)
    (known : letterEscape? letter = some c) :
    readBasicLines false ('\\' :: letter :: rest) =
      withFirst (some c) (readBasicLines false rest) := by
  obtain ⟨short, long, newline, carriage, white⟩ := letterEscape?_apart letter known
  have stays := not_endsLine letter rest white newline carriage
  rw [readBasicLines, stays, known]
  all_goals simp [short, long]

theorem readBasicLines_escape (c : Char) (rest : List Char) (written : escape? c = some escape) :
    readBasicLines false (escape ++ rest) = withFirst (some c) (readBasicLines false rest) := by
  rcases escape?_cases c written with ⟨letter, rfl, known⟩ | rfl
  · exact readBasicLines_letter letter rest known
  · obtain ⟨a, b, d, e, code⟩ := paddedDigits_code c.toNat (toNat_lt_of_escape? c written)
    have value := hexChar?_paddedDigits c
    rw [code] at value ⊢
    simp [readBasicLines, value]

theorem readBasicLines_close (rest : List Char) (plain : StartsPlain rest) (count : Nat)
    (few : count ≤ 2) :
    readBasicLines false (List.replicate count '"' ++ '"' :: '"' :: '"' :: rest) =
      some (List.replicate count '"', rest) := by
  have apart (more : List Char) : rest ≠ '"' :: more := by
    rintro rfl
    exact (plain '"' rfl).1 rfl
  match count, few with
  | 0, _ => simp [readBasicLines, apart]
  | 1, _ => simp [readBasicLines, List.replicate_succ]
  | 2, _ => simp [readBasicLines, List.replicate_succ]

/-- A quote is written as it is only at the start of a row or behind one other. -/
theorem writeBasicLines_cons_ne_quote (row : Nat) (c : Char) (text rest more : List Char)
    (apart : c ≠ '"' ∨ row = 2) : writeBasicLines row (c :: text) ++ rest ≠ '"' :: more := by
  rw [writeBasicLines]
  split
  · next quote =>
    have full : row = 2 := apart.resolve_left (not_not.mpr quote)
    simp [full]
  · next quote =>
    split
    · next escape written =>
      rcases escape?_cases c written with ⟨letter, rfl, -⟩ | rfl <;> simp
    · intro same
      exact quote (List.cons.inj same).1

/-- Behind a quote two more are only written at the end of the text. -/
theorem writeBasicLines_ne_quotes (row : Nat) (c : Char) (text rest more : List Char)
    (room : row + 1 ≤ 2) (inside : ¬ (row = 0 ∧ c = '"' ∧ text = [])) :
    writeBasicLines (row + 1) (c :: text) ++ rest ≠ '"' :: '"' :: more := by
  intro same
  by_cases second : c = '"' ∧ row = 0
  · obtain ⟨rfl, rfl⟩ := second
    rw [writeBasicLines, if_pos rfl, if_neg (by omega)] at same
    match text with
    | [] => exact inside ⟨rfl, rfl, rfl⟩
    | d :: text =>
      exact writeBasicLines_cons_ne_quote 2 d text rest more (.inr rfl) (List.cons.inj same).2
  · refine writeBasicLines_cons_ne_quote (row + 1) c text rest _ ?_ same
    by_cases quote : c = '"'
    · have full : row ≠ 0 := not_and.mp second quote
      exact .inr (by omega)
    · exact .inl quote

theorem readBasicLines_writeBasicLines (text rest : List Char) (plain : StartsPlain rest)
    (row : Nat) (few : row ≤ 2) :
    readBasicLines false (writeBasicLines row text ++ '"' :: '"' :: '"' :: rest) =
      some (text, rest) := by
  induction text generalizing row with
  | nil => exact readBasicLines_close rest plain 0 (by omega)
  | cons c text ih =>
    rw [writeBasicLines]
    split
    · next quote =>
      subst quote
      split
      · rw [List.cons_append, List.cons_append, readBasicLines_letter '"' _ rfl, ih 0 (by omega)]
        rfl
      · next room =>
        match text, ih with
        | [], _ => exact readBasicLines_close rest plain 1 (by omega)
        | d :: text, ih =>
          by_cases pair : row = 0 ∧ d = '"' ∧ text = []
          · obtain ⟨rfl, rfl, rfl⟩ := pair
            exact readBasicLines_close rest plain 2 (by omega)
          · rw [List.cons_append, readBasicLines_quote, ih (row + 1) (by omega)]
            · rfl
            · intro more
              exact writeBasicLines_ne_quotes row d text _ more (by omega) pair
    · next quote =>
      split
      · next escape written =>
        rw [List.append_assoc, readBasicLines_escape c _ written, ih 0 (by omega)]
        rfl
      · next none =>
        obtain ⟨slash, carriage, plain⟩ := plain_of_escape?_eq_none c none
        rw [List.cons_append, readBasicLines_plain c _ quote slash carriage plain, ih 0 (by omega)]
        rfl

/-! ### Literal texts -/

theorem readLiteral_append (text rest : List Char)
    (plain : ∀ c ∈ text, isPlain c = true ∧ c ≠ '\'') :
    readLiteral (text ++ '\'' :: rest) = some (text, rest) := by
  induction text with
  | nil => simp [readLiteral]
  | cons c text ih =>
    obtain ⟨stays, apart⟩ := plain c List.mem_cons_self
    have later := ih fun d member => plain d (List.mem_cons_of_mem _ member)
    rw [List.cons_append, readLiteral, if_pos stays, later]
    · rfl
    · exact apart

theorem readLiteralLines_plain (c : Char) (rest : List Char)
    (few : ∀ more, c :: rest ≠ '\'' :: '\'' :: '\'' :: more)
    (plain : isPlain c = true ∨ c = '\n') :
    readLiteralLines (c :: rest) = withFirst (some c) (readLiteralLines rest) := by
  have carriage : c ≠ '\r' := by
    rintro rfl
    simp [isPlain] at plain
  rw [readLiteralLines]
  · simp [plain]
  iterate 3
    intro more first same
    exact few _ (by rw [first, same])
  · intro more first
    exact absurd first carriage

theorem readLiteralLines_close (rest : List Char) (plain : StartsPlain rest) (count : Nat)
    (few : count ≤ 2) :
    readLiteralLines (List.replicate count '\'' ++ '\'' :: '\'' :: '\'' :: rest) =
      some (List.replicate count '\'', rest) := by
  have apart (more : List Char) : rest ≠ '\'' :: more := by
    rintro rfl
    exact (plain '\'' rfl).2 rfl
  match count, few with
  | 0, _ => simp [readLiteralLines, apart]
  | 1, _ => simp [readLiteralLines, List.replicate_succ]
  | 2, _ => simp [readLiteralLines, List.replicate_succ]

theorem readLiteralLines_append (text rest : List Char)
    (plain : ∀ c ∈ text, isPlain c = true ∨ c = '\n')
    (few : ¬ List.replicate 3 '\'' <:+: text) (ends : StartsPlain rest) :
    readLiteralLines (text ++ '\'' :: '\'' :: '\'' :: rest) = some (text, rest) := by
  induction text with
  | nil => exact readLiteralLines_close rest ends 0 (by omega)
  | cons c text ih =>
    have later := ih (fun d member => plain d (List.mem_cons_of_mem _ member))
      (fun triple => few (triple.trans (List.suffix_cons c text).isInfix))
    by_cases one : c = '\'' ∧ text = []
    · obtain ⟨rfl, rfl⟩ := one
      exact readLiteralLines_close rest ends 1 (by omega)
    by_cases two : c = '\'' ∧ text = ['\'']
    · obtain ⟨rfl, rfl⟩ := two
      exact readLiteralLines_close rest ends 2 (by omega)
    · rw [List.cons_append, readLiteralLines_plain c _ ?_ (plain c List.mem_cons_self), later]
      · rfl
      · intro more same
        match text with
        | [] => simp_all
        | [d] => simp_all
        | d :: e :: text =>
          obtain ⟨rfl, rfl, rfl, -⟩ : c = '\'' ∧ d = '\'' ∧ e = '\'' ∧ _ := by
            simpa using same
          exact few ⟨[], text, rfl⟩

/-! ### The longest row of a mark -/

theorem longestRowFrom_mono (mark : Char) (text : List Char) (le : row ≤ more) :
    longestRowFrom mark row text ≤ longestRowFrom mark more text := by
  induction text generalizing row more with
  | nil => exact le
  | cons c text ih =>
    rw [longestRowFrom, longestRowFrom]
    split
    · exact ih (by omega)
    · omega

theorem le_longestRowFrom (mark : Char) (row : Nat) (text : List Char) :
    row ≤ longestRowFrom mark row text := by
  induction text generalizing row with
  | nil => exact Nat.le_refl row
  | cons c text ih =>
    rw [longestRowFrom]
    split
    · have := ih (row + 1)
      omega
    · omega

theorem longestRowFrom_replicate_append (mark : Char) (row count : Nat) (text : List Char) :
    longestRowFrom mark row (List.replicate count mark ++ text) =
      longestRowFrom mark (row + count) text := by
  induction count generalizing row with
  | zero => rfl
  | succ count ih =>
    rw [List.replicate_succ, List.cons_append, longestRowFrom, if_pos rfl, ih]
    congr 1
    omega

theorem longestRowFrom_append_le (mark : Char) (row : Nat) (front back : List Char) :
    longestRowFrom mark 0 back ≤ longestRowFrom mark row (front ++ back) := by
  induction front generalizing row with
  | nil => exact longestRowFrom_mono mark back (Nat.zero_le row)
  | cons c front ih =>
    rw [List.cons_append, longestRowFrom]
    split
    · exact ih (row + 1)
    · have := ih 0
      omega

theorem replicate_isInfix_append (mark : Char) (text : List Char) (le : count ≤ row) :
    List.replicate count mark <:+: List.replicate row mark ++ text := by
  refine ⟨[], List.replicate (row - count) mark ++ text, ?_⟩
  rw [List.nil_append, ← List.append_assoc, List.replicate_append_replicate]
  congr 2
  omega

theorem isInfix_of_le_longestRowFrom (mark : Char) (count row : Nat) (text : List Char)
    (le : count ≤ longestRowFrom mark row text) :
    List.replicate count mark <:+: List.replicate row mark ++ text := by
  induction text generalizing row with
  | nil => exact replicate_isInfix_append mark [] le
  | cons c text ih =>
    rw [longestRowFrom] at le
    split at le
    · next same =>
      subst same
      have longer := ih (row + 1) le
      rwa [List.replicate_succ', List.append_assoc] at longer
    · by_cases first : count ≤ row
      · exact replicate_isInfix_append mark (c :: text) first
      · have later := ih 0 (by omega)
        exact later.trans ⟨List.replicate row mark ++ [c], [], by simp⟩

theorem le_longestRow_iff (mark : Char) (count : Nat) (text : List Char) :
    count ≤ longestRow mark text ↔ List.replicate count mark <:+: text := by
  constructor
  · intro le
    simpa using isInfix_of_le_longestRowFrom mark count 0 text le
  · rintro ⟨front, back, rfl⟩
    have behind := longestRowFrom_append_le mark 0 front (List.replicate count mark ++ back)
    rw [longestRowFrom_replicate_append] at behind
    have start := le_longestRowFrom mark (0 + count) back
    rw [longestRow, List.append_assoc]
    omega

theorem longestRow_eq_zero_iff (mark : Char) (text : List Char) :
    longestRow mark text = 0 ↔ mark ∉ text := by
  have one := le_longestRow_iff mark 1 text
  rw [List.replicate_one, List.singleton_infix_iff] at one
  rw [← one]
  omega

/-! ### The chosen form -/

theorem choose_eq (text : List Char) :
    TextForm.choose text =
      if text.any isControl = false ∧ '\\' ∉ text ∧ '\n' ∉ text ∧ '"' ∉ text then .basic
      else if text.any isControl = false ∧ '\n' ∉ text ∧ '\'' ∉ text then .literal
      else if text.any isControl = false ∧ '\\' ∉ text ∧ longestRow '"' text ≤ 2 then .basicLines
      else if text.any isControl = false ∧ longestRow '\'' text ≤ 2 then .literalLines
      else if '\n' ∈ text then .basicLines
      else .basic := by
  simp only [TextForm.choose, Bool.and_eq_true, Bool.not_eq_true', beq_iff_eq, decide_eq_true_eq,
    longestRow_eq_zero_iff, List.contains_eq_mem, decide_eq_false_iff_not, and_assoc]

/-- A literal text holds no apostrophes and nothing that would need an escape. -/
theorem plain_of_choose_literal (text : List Char) (chosen : TextForm.choose text = .literal) :
    ∀ c ∈ text, isPlain c = true ∧ c ≠ '\'' := by
  have facts : text.any isControl = false ∧ '\n' ∉ text ∧ '\'' ∉ text := by
    rw [choose_eq] at chosen
    split at chosen
    · cases chosen
    split at chosen
    · assumption
    split at chosen
    · cases chosen
    split at chosen
    · cases chosen
    split at chosen
    all_goals cases chosen
  obtain ⟨tame, newline, apostrophe⟩ := facts
  intro c member
  have control : isControl c = false := by
    simpa using List.any_eq_false.mp tame c member
  constructor
  · rcases isPlain_of_not_isControl c control with plain | rfl
    · exact plain
    · exact absurd member newline
  · rintro rfl
    exact apostrophe member

theorem plain_of_choose_literalLines (text : List Char)
    (chosen : TextForm.choose text = .literalLines) :
    (∀ c ∈ text, isPlain c = true ∨ c = '\n') ∧ ¬ List.replicate 3 '\'' <:+: text := by
  have facts : text.any isControl = false ∧ longestRow '\'' text ≤ 2 := by
    rw [choose_eq] at chosen
    split at chosen
    · cases chosen
    split at chosen
    · cases chosen
    split at chosen
    · cases chosen
    split at chosen
    · assumption
    split at chosen
    all_goals cases chosen
  constructor
  · intro c member
    exact isPlain_of_not_isControl c (by simpa using List.any_eq_false.mp facts.1 c member)
  · intro triple
    have long := (le_longestRow_iff '\'' 3 text).mpr triple
    omega

theorem afterOpening_openingLine (text written : List Char)
    (starts : '\n' ∉ text → ∀ c ∈ written.head?, c ≠ '\n' ∧ c ≠ '\r') :
    afterOpening (openingLine text ++ written) = written := by
  by_cases lines : '\n' ∈ text
  · simp [openingLine, lines, afterOpening, afterNewline?]
  · have none : afterNewline? written = none := by
      cases written with
      | nil => rfl
      | cons c written =>
        obtain ⟨newline, carriage⟩ := starts lines c rfl
        simp [afterNewline?, newline, carriage]
    simp [openingLine, lines, afterOpening, none]

/-- The first written character of a text of several lines is the quote or the escape of its
first one, or that itself. -/
theorem head_writeBasicLines (text rest : List Char) (flat : '\n' ∉ text) :
    ∀ c ∈ (writeBasicLines 0 text ++ '"' :: rest).head?, c ≠ '\n' ∧ c ≠ '\r' := by
  cases text with
  | nil => simp [writeBasicLines]
  | cons d text =>
    rw [writeBasicLines]
    split
    · simp
    · split
      · next escape written =>
        rcases escape?_cases d written with ⟨letter, rfl, -⟩ | rfl <;> simp
      · next none =>
        obtain ⟨-, carriage, -⟩ := plain_of_escape?_eq_none d none
        have newline : d ≠ '\n' := by
          rintro rfl
          exact flat List.mem_cons_self
        simp [newline, carriage]

theorem head_append_apostrophe (text rest : List Char)
    (apart : ∀ c ∈ text, isPlain c = true ∨ c = '\n') (flat : '\n' ∉ text) :
    ∀ c ∈ (text ++ '\'' :: rest).head?, c ≠ '\n' ∧ c ≠ '\r' := by
  cases text with
  | nil => simp
  | cons d text =>
    have newline : d ≠ '\n' := by
      rintro rfl
      exact flat List.mem_cons_self
    have carriage : d ≠ '\r' := by
      rintro rfl
      have plain := apart '\r' List.mem_cons_self
      simp [isPlain] at plain
    simp [newline, carriage]

theorem writeBasic_ne_quotes (text rest more : List Char) (plain : StartsPlain rest) :
    writeBasic text ++ '"' :: rest ≠ '"' :: '"' :: more := by
  cases text with
  | nil =>
    intro same
    have tail : rest = '"' :: more := by simpa [writeBasic] using same
    exact (plain '"' (by rw [tail]; rfl)).1 rfl
  | cons c text =>
    rw [writeBasic]
    split
    · simp
    · next quote =>
      split
      · simp
      · split
        · next escape written =>
          rcases escape?_cases c written with ⟨letter, rfl, -⟩ | rfl <;> simp
        · intro same
          exact quote (List.cons.inj same).1

theorem append_ne_apostrophes (text rest more : List Char)
    (apart : ∀ c ∈ text, isPlain c = true ∧ c ≠ '\'') (plain : StartsPlain rest) :
    text ++ '\'' :: rest ≠ '\'' :: '\'' :: more := by
  cases text with
  | nil =>
    intro same
    have tail : rest = '\'' :: more := by simpa using same
    exact (plain '\'' (by rw [tail]; rfl)).2 rfl
  | cons c text =>
    intro same
    exact (apart c List.mem_cons_self).2 (List.cons.inj same).1

/-- A written text reads back, up to where it ends. -/
theorem readText_writeText (text rest : List Char) (plain : StartsPlain rest) :
    readText (writeText text ++ rest) = some (text, rest) := by
  rw [writeText]
  cases chosen : TextForm.choose text with
  | basic =>
    simp only [TextForm.write, List.cons_append, List.append_assoc, List.nil_append]
    rw [readText]
    · exact readBasic_writeBasic text rest
    · intro more same
      exact writeBasic_ne_quotes text rest more plain same
  | literal =>
    have apart := plain_of_choose_literal text chosen
    simp only [TextForm.write, List.cons_append, List.append_assoc, List.nil_append]
    rw [readText]
    · exact readLiteral_append text rest apart
    · intro more same
      exact append_ne_apostrophes text rest more apart plain same
  | basicLines =>
    simp only [TextForm.write, List.cons_append, List.append_assoc, List.nil_append]
    rw [readText, afterOpening_openingLine]
    · exact readBasicLines_writeBasicLines text rest plain 0 (by omega)
    · exact head_writeBasicLines text _
  | literalLines =>
    obtain ⟨apart, few⟩ := plain_of_choose_literalLines text chosen
    simp only [TextForm.write, List.cons_append, List.append_assoc, List.nil_append]
    rw [readText, afterOpening_openingLine]
    · exact readLiteralLines_append text rest apart few plain
    · exact head_append_apostrophe text _ apart

end FragmentBuild.Toml
