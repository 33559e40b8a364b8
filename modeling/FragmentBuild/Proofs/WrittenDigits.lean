import FragmentBuild.Toml.Scalar
import FragmentBuild.Toml.TextReader
import Mathlib.Tactic.IntervalCases

/-! Digits read back: the digits of a number stand for that number, in every base up to sixteen,
and rows of them are read as they were written. -/
namespace FragmentBuild

theorem digitValue?_digitChar (small : digit < base) (le : base ≤ 16) :
    digitValue? base (digitChar digit) = some digit := by
  have bound : digit < 16 := by omega
  interval_cases digit <;> simp [digitValue?, digitChar, small]

theorem isDigit_digitChar (small : digit < base) (le : base ≤ 16) :
    isDigit base (digitChar digit) = true := by
  rw [isDigit, digitValue?_digitChar small le]
  rfl

theorem isDigit_zero (two : 2 ≤ base) (le : base ≤ 16) : isDigit base '0' = true := by
  have positive : 0 < base := by omega
  exact isDigit_digitChar positive le

def nextDigit (base number : Nat) (c : Char) : Nat :=
  match digitValue? base c with
  | some digit => number * base + digit
  | none => number

theorem numberOf_eq (base : Nat) (text : List Char) :
    numberOf base text = text.foldl (nextDigit base) 0 := rfl

theorem foldl_digitsAnd (two : 2 ≤ base) (le : base ≤ 16) (number : Nat) (tail : List Char) :
    (digitsAnd base number tail).foldl (nextDigit base) 0 = tail.foldl (nextDigit base) number := by
  fun_induction digitsAnd base number tail with
  | case1 number tail stop =>
    have zero : number = 0 := by omega
    rw [zero]
  | case2 number tail more ih =>
    have small : number % base < base := Nat.mod_lt _ (by omega)
    rw [ih, List.foldl_cons, nextDigit, digitValue?_digitChar small le]
    show List.foldl _ (number / base * base + number % base) tail = _
    rw [Nat.div_add_mod']

theorem numberOf_digits (two : 2 ≤ base) (le : base ≤ 16) (number : Nat) :
    numberOf base (digits base number) = number := by
  rw [numberOf_eq, digits]
  split
  · next zero =>
    rw [zero]
    show nextDigit base 0 (digitChar 0) = 0
    rw [nextDigit, digitValue?_digitChar (by omega) le]
    simp
  · rw [foldl_digitsAnd two le]
    rfl

theorem isDigit_of_mem_digitsAnd (two : 2 ≤ base) (le : base ≤ 16) (number : Nat)
    (tail : List Char) (member : c ∈ digitsAnd base number tail) :
    isDigit base c = true ∨ c ∈ tail := by
  fun_induction digitsAnd base number tail with
  | case1 number tail stop => exact .inr member
  | case2 number tail more ih =>
    rcases ih member with digit | within
    · exact .inl digit
    · rcases List.mem_cons.mp within with rfl | later
      · exact .inl (isDigit_digitChar (Nat.mod_lt _ (by omega)) le)
      · exact .inr later

theorem isDigit_of_mem_digits (two : 2 ≤ base) (le : base ≤ 16) (number : Nat)
    (member : c ∈ digits base number) : isDigit base c = true := by
  rw [digits] at member
  split at member
  · obtain rfl := List.mem_singleton.mp member
    exact isDigit_zero two le
  · rcases isDigit_of_mem_digitsAnd two le number [] member with digit | within
    · exact digit
    · cases within

theorem digitsAnd_eq_cons (two : 2 ≤ base) (number : Nat) (tail : List Char)
    (positive : 0 < number) :
    ∃ digit rest, digitsAnd base number tail = digitChar digit :: rest ∧
      0 < digit ∧ digit < base := by
  fun_induction digitsAnd base number tail with
  | case1 number tail stop => omega
  | case2 number tail more ih =>
    by_cases last : number / base = 0
    · have below : number < base := by
        rcases Nat.div_eq_zero_iff.mp last with zero | below
        · omega
        · exact below
      refine ⟨number, tail, ?_, positive, below⟩
      rw [last, digitsAnd, if_pos (.inl rfl), Nat.mod_eq_of_lt below]
    · exact ih (Nat.pos_of_ne_zero last)

theorem digits_ne_nil (two : 2 ≤ base) (number : Nat) : digits base number ≠ [] := by
  rw [digits]
  split
  · simp
  · next positive =>
    obtain ⟨digit, rest, shape, -⟩ := digitsAnd_eq_cons two number [] (Nat.pos_of_ne_zero positive)
    simp [shape]

theorem digits_zero_cons (two : 2 ≤ base) (le : base ≤ 16)
    (shape : digits base number = '0' :: rest) : rest = [] := by
  rw [digits] at shape
  split at shape
  · simpa using shape.symm
  · next positive =>
    obtain ⟨digit, more, start, nonzero, small⟩ :=
      digitsAnd_eq_cons two number [] (Nat.pos_of_ne_zero positive)
    have same : digitChar digit = digitChar 0 := by
      rw [start] at shape
      exact (List.cons.inj shape).1
    have value := digitValue?_digitChar small le
    rw [same, digitValue?_digitChar (by omega) le] at value
    exact absurd (Option.some.inj value) (by omega)

theorem length_digitsAnd_le (number : Nat) (tail : List Char) (places : Nat)
    (small : number < base ^ places) :
    (digitsAnd base number tail).length ≤ places + tail.length := by
  fun_induction digitsAnd base number tail generalizing places with
  | case1 number tail stop => omega
  | case2 number tail more ih =>
    cases places with
    | zero =>
      have zero : number = 0 := by simpa using small
      exact absurd (.inl zero) more
    | succ places =>
      have below : number / base < base ^ places := by
        rw [Nat.div_lt_iff_lt_mul (by omega), ← Nat.pow_succ]
        exact small
      have bound := ih places below
      rw [List.length_cons] at bound
      omega

theorem length_paddedDigits (small : number < base ^ places) (positive : 0 < places) :
    (paddedDigits base places number).length = places := by
  have bound : (digits base number).length ≤ places := by
    rw [digits]
    split
    · exact positive
    · simpa using length_digitsAnd_le number [] places small
  simp only [paddedDigits, List.length_append, List.length_replicate]
  omega

theorem numberOf_zeros_append (base count : Nat) (text : List Char) :
    numberOf base (List.replicate count '0' ++ text) = numberOf base text := by
  induction count with
  | zero => rfl
  | succ count ih =>
    have zero : nextDigit base 0 '0' = 0 := by
      by_cases empty : base = 0
      · simp [nextDigit, digitValue?, empty]
      · simp [nextDigit, digitValue?, Nat.pos_of_ne_zero empty]
    rw [numberOf_eq] at ih ⊢
    rw [List.replicate_succ, List.cons_append, List.foldl_cons, zero]
    exact ih

theorem numberOf_paddedDigits (two : 2 ≤ base) (le : base ≤ 16) (places number : Nat) :
    numberOf base (paddedDigits base places number) = number := by
  rw [paddedDigits, numberOf_zeros_append, numberOf_digits two le]

theorem isDigit_of_mem_paddedDigits (two : 2 ≤ base) (le : base ≤ 16) (places number : Nat)
    (member : c ∈ paddedDigits base places number) : isDigit base c = true := by
  rcases List.mem_append.mp member with zeros | within
  · rw [List.eq_of_mem_replicate zeros]
    exact isDigit_zero two le
  · exact isDigit_of_mem_digits two le number within

namespace Toml

theorem hexChar?_paddedDigits (c : Char) : hexChar? (paddedDigits 16 4 c.toNat) = some c := by
  have digits : (paddedDigits 16 4 c.toNat).all (isDigit 16) = true := by
    rw [List.all_eq_true]
    intro digit member
    exact isDigit_of_mem_paddedDigits (by omega) (by omega) 4 c.toNat member
  have number : numberOf 16 (paddedDigits 16 4 c.toNat) = c.toNat :=
    numberOf_paddedDigits (by omega) (by omega) 4 c.toNat
  have valid : (numberOf 16 (paddedDigits 16 4 c.toNat)).isValidChar := by
    rw [number]
    exact c.valid
  rw [hexChar?, if_pos digits]
  refine (dif_pos valid).trans ?_
  exact congrArg some (Char.ext (UInt32.toNat_inj.mp number))

/-- Rows of digits hold no underscores, so that reading leaves them as they are. -/
theorem ungroup_digits (word : List Char) (full : word ≠ [])
    (digits : ∀ c ∈ word, isDigit base c = true) : ungroup base word = some word := by
  induction word with
  | nil => exact absurd rfl full
  | cons c rest ih =>
    have first := digits c List.mem_cons_self
    cases rest with
    | nil => simp [ungroup, first]
    | cons d rest =>
      have plain : d ≠ '_' := by
        rintro rfl
        have second := digits '_' (by simp)
        simp [isDigit, digitValue?] at second
      have later := ih (by simp) fun other member => digits other (List.mem_cons_of_mem _ member)
      rw [ungroup, if_pos first, later, Option.map_some]
      · intro same
        cases same
      · intro more same
        exact plain (List.cons.inj same).1

end Toml

end FragmentBuild
