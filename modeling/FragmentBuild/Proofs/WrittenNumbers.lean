import FragmentBuild.Proofs.WrittenKeys
import Mathlib.Data.List.TakeWhile

/-! Written integers and truth values, read back. A word of digits is no date, no time and no
floating-point number, so that it is an integer. -/
namespace FragmentBuild.Toml

theorem isDigit_of_isDigit_ten (c : Char) (digit : isDigit 10 c = true) : c.isDigit = true := by
  by_cases decimal : '0' ≤ c ∧ c ≤ '9'
  · simpa [Char.isDigit, Char.le_def] using decimal
  · simp only [isDigit, digitValue?, if_neg decimal, Option.isSome_iff_exists,
      Option.ite_none_right_eq_some] at digit
    obtain ⟨value, small, -⟩ := digit
    split_ifs at small
    all_goals omega

theorem ne_of_isDigit (digit : isDigit 10 c = true) (other : isDigit 10 d = false) : c ≠ d := by
  rintro rfl
  rw [digit] at other
  cases other

theorem not_mem_of_isDigit (marks : List Char) (digit : isDigit 10 c = true)
    (other : marks.all (fun d => !isDigit 10 d) = true) : c ∉ marks := by
  intro member
  have fails := List.all_eq_true.mp other c member
  rw [digit] at fails
  cases fails

theorem isWordChar_of_isDigit (c : Char) (digit : isDigit 10 c = true) : isWordChar c = true := by
  have number := isDigit_of_isDigit_ten c digit
  simp [isWordChar, Char.isAlphanum, number]

theorem date?_eq_none (word : List Char) (plain : '-' ∉ word.tail) : date? word = none := by
  unfold date?
  split
  · simp at plain
  · rfl

theorem time?_eq_none (word : List Char) (plain : ':' ∉ word) : time? word = none := by
  unfold time?
  split
  · simp at plain
  · rfl

theorem moment?_eq_none (word : List Char) (date : '-' ∉ word.tail) (time : ':' ∉ word) :
    moment? word = none := by
  rw [moment?, date?_eq_none word date, time?_eq_none word time]

/-- A row of decimal digits that starts with a zero only if it is one. -/
structure IsWhole (whole : List Char) : Prop where
  full : whole ≠ []
  digits : ∀ c ∈ whole, isDigit 10 c = true
  lead : ∀ rest, whole = '0' :: rest → rest = []

theorem isWhole_digits (number : Nat) : IsWhole (digits 10 number) where
  full := digits_ne_nil (by omega) number
  digits c member := isDigit_of_mem_digits (by omega) (by omega) number member
  lead rest shape := digits_zero_cons (by omega) (by omega) shape

theorem IsWhole.not_mem (whole : IsWhole word) (other : isDigit 10 c = false) : c ∉ word := by
  intro member
  rw [whole.digits c member] at other
  cases other

theorem IsWhole.decimalWhole (whole : IsWhole word) : decimalWhole word = some word := by
  unfold Toml.decimalWhole
  split
  · next c rest =>
    have short := whole.lead _ rfl
    cases short
  · exact ungroup_digits word whole.full whole.digits

theorem IsWhole.signed (whole : IsWhole word) : signed word = (false, word) := by
  unfold Toml.signed
  split
  · exact absurd List.mem_cons_self (whole.not_mem (c := '-') (by decide))
  · exact absurd List.mem_cons_self (whole.not_mem (c := '+') (by decide))
  · rfl

theorem float?_eq_none (word : List Char) (whole : IsWhole unsigned)
    (shape : signed word = (negative, unsigned)) : float? word = none := by
  have infinity : unsigned ≠ ['i', 'n', 'f'] := by
    rintro rfl
    exact whole.not_mem (c := 'i') (by decide) List.mem_cons_self
  have nan : unsigned ≠ ['n', 'a', 'n'] := by
    rintro rfl
    exact whole.not_mem (c := 'n') (by decide) List.mem_cons_self
  have unbroken : unsigned.dropWhile (fun c => !c == '.' && !isExponentMark c) = [] := by
    rw [List.dropWhile_eq_nil_iff]
    intro c member
    have digit := whole.digits c member
    have point := ne_of_isDigit digit (d := '.') (by decide)
    have lower := ne_of_isDigit digit (d := 'e') (by decide)
    have upper := ne_of_isDigit digit (d := 'E') (by decide)
    simp [isExponentMark, point, lower, upper]
  simp only [float?, decimal?, shape, infinity, nan, if_false, Bool.not_or, unbroken]
  simp

theorem integer?_decimal (word : List Char) (base : ∀ c ∈ ['x', 'o', 'b'], c ∉ word) :
    integer? word =
      (decimalWhole (signed word).2).bind fun whole =>
        integerOf (signed word).1 (numberOf 10 whole) := by
  rw [integer?]
  · rfl
  · rintro rest rfl
    exact base 'x' (by simp) (by simp)
  · rintro rest rfl
    exact base 'o' (by simp) (by simp)
  · rintro rest rfl
    exact base 'b' (by simp) (by simp)

theorem integer?_of_whole (word : List Char) (whole : IsWhole unsigned)
    (shape : signed word = (negative, unsigned)) (base : ∀ c ∈ ['x', 'o', 'b'], c ∉ word) :
    integer? word = integerOf negative (numberOf 10 unsigned) := by
  rw [integer?_decimal word base, shape, whole.decimalWhole, Option.bind_some]

theorem integerOf_toInt (number : Int64) (negative : Bool) (magnitude : Nat)
    (same : number.toInt = if negative then -(magnitude : Int) else magnitude) :
    integerOf negative magnitude = some (.integer number) := by
  have least := number.le_toInt
  have greatest := number.toInt_lt
  simp only [integerOf, ← same, Int64.ofInt_toInt]
  rw [if_pos]
  constructor
  · omega
  · omega

theorem scalar?_of_whole (word : List Char) (whole : IsWhole unsigned)
    (shape : signed word = (negative, unsigned)) (date : '-' ∉ word.tail)
    (other : ∀ c ∈ [':', 't', 'f', 'x', 'o', 'b'], c ∉ word) :
    scalar? word = integerOf negative (numberOf 10 unsigned) := by
  have yes : word ≠ ['t', 'r', 'u', 'e'] := by
    rintro rfl
    exact other 't' (by simp) (by simp)
  have no : word ≠ ['f', 'a', 'l', 's', 'e'] := by
    rintro rfl
    exact other 'f' (by simp) (by simp)
  have base (c : Char) (member : c ∈ ['x', 'o', 'b']) : c ∉ word := other c (by simp_all)
  rw [scalar?, if_neg yes, if_neg no, moment?_eq_none word date (other ':' (by simp)),
    float?_eq_none word whole shape, integer?_of_whole word whole shape base, Option.none_or,
    Option.none_or]

/-- A written integer is its sign and its digits. -/
theorem writeInteger_shape (number : Int) :
    ∃ negative, signed (writeInteger number) = (negative, digits 10 number.natAbs) ∧
      number = (if negative then -(number.natAbs : Int) else number.natAbs) ∧
      '-' ∉ (writeInteger number).tail ∧
      ∀ c ∈ writeInteger number, c = '-' ∨ isDigit 10 c = true := by
  have whole := isWhole_digits number.natAbs
  have plain : '-' ∉ digits 10 number.natAbs := whole.not_mem (by decide)
  rw [writeInteger]
  split
  · next negative =>
    refine ⟨true, rfl, ?_, plain, ?_⟩
    · simp only [if_true]
      omega
    · intro c member
      rcases List.mem_cons.mp member with sign | digit
      · exact .inl sign
      · exact .inr (whole.digits c digit)
  · next positive =>
    refine ⟨false, whole.signed, ?_, ?_, ?_⟩
    · simp only [Bool.false_eq_true, if_false]
      omega
    · exact fun member => plain (List.mem_of_mem_tail member)
    · exact fun c member => .inr (whole.digits c member)

theorem scalar?_writeInteger (number : Int64) :
    scalar? (writeInteger number.toInt) = some (.integer number) := by
  obtain ⟨negative, shape, same, date, chars⟩ := writeInteger_shape number.toInt
  have whole := isWhole_digits number.toInt.natAbs
  have value : numberOf 10 (digits 10 number.toInt.natAbs) = number.toInt.natAbs :=
    numberOf_digits (by omega) (by omega) _
  rw [scalar?_of_whole _ whole shape date, value, integerOf_toInt number negative _ same]
  intro c letter member
  rcases chars c member with rfl | digit
  · revert letter
    decide
  · exact not_mem_of_isDigit _ digit (by decide) letter

/-! ### Words in front of other text -/

/-- What would lengthen a value that it follows: a character of a word or a mark. -/
def extendsValue (c : Char) : Bool := isWordChar c || c == '"' || c == '\''

theorem stops_of_stops_extendsValue (stops : Stops extendsValue rest) :
    Stops isWordChar rest ∧ StartsPlain rest := by
  constructor
  · intro c head
    have fails := stops c head
    simp only [extendsValue, Bool.or_eq_false_iff] at fails
    exact fails.1.1
  · intro c head
    have fails := stops c head
    simp only [extendsValue, Bool.or_eq_false_iff, beq_eq_false_iff_ne] at fails
    exact ⟨fails.1.2, fails.2⟩

theorem readScalar_word (word rest : List Char) (all : word.all isWordChar = true)
    (stops : Stops isWordChar rest) (date : '-' ∉ word.tail) (value : scalar? word = some found) :
    readScalar (word ++ rest) = some (found, rest) := by
  have alone : spacedTime? word rest = none := by
    unfold spacedTime?
    rw [date?_eq_none word date]
  have chars := List.all_eq_true.mp all
  simp only [readScalar, takeWhile_append_of_stops word chars stops,
    dropWhile_append_of_stops word chars stops, alone, value, Option.none_or, Option.map_some]

theorem readScalar_writeInteger (number : Int64) (rest : List Char)
    (stops : Stops isWordChar rest) :
    readScalar (writeInteger number.toInt ++ rest) = some (.integer number, rest) := by
  obtain ⟨-, -, -, date, chars⟩ := writeInteger_shape number.toInt
  refine readScalar_word _ rest (List.all_eq_true.mpr ?_) stops date (scalar?_writeInteger number)
  intro c member
  rcases chars c member with rfl | digit
  · decide
  · exact isWordChar_of_isDigit c digit

theorem readScalar_boolean (value : Bool) (rest : List Char) (stops : Stops isWordChar rest) :
    readScalar ((Value.boolean value).write ++ rest) = some (.boolean value, rest) := by
  cases value with
  | true => exact readScalar_word ['t', 'r', 'u', 'e'] rest (by decide) stops (by decide) rfl
  | false => exact readScalar_word ['f', 'a', 'l', 's', 'e'] rest (by decide) stops (by decide) rfl

end FragmentBuild.Toml
