/-! Digits of natural numbers, most significant first. -/
namespace FragmentBuild

def digitChar (digit : Nat) : Char :=
  if digit < 10 then Char.ofNat ('0'.toNat + digit) else Char.ofNat ('A'.toNat + (digit - 10))

/-- Digits in front of `tail`; zero has none. -/
def digitsAnd (base number : Nat) (tail : List Char) : List Char :=
  if number = 0 ∨ base < 2 then tail
  else digitsAnd base (number / base) (digitChar (number % base) :: tail)
termination_by number
decreasing_by exact Nat.div_lt_self (by omega) (by omega)

/-- The digits of a number; zero is one digit. -/
def digits (base number : Nat) : List Char :=
  if number = 0 then ['0'] else digitsAnd base number []

def paddedDigits (base width number : Nat) : List Char :=
  let plain := digits base number
  List.replicate (width - plain.length) '0' ++ plain

def digitValue? (base : Nat) (c : Char) : Option Nat :=
  let value :=
    if '0' ≤ c ∧ c ≤ '9' then c.toNat - '0'.toNat
    else if 'a' ≤ c ∧ c ≤ 'f' then c.toNat - 'a'.toNat + 10
    else if 'A' ≤ c ∧ c ≤ 'F' then c.toNat - 'A'.toNat + 10
    else base
  if value < base then some value else none

def isDigit (base : Nat) (c : Char) : Bool := (digitValue? base c).isSome

/-- The number that a row of digits stands for; other characters are passed over. -/
def numberOf (base : Nat) (text : List Char) : Nat :=
  text.foldl (fun number c =>
    match digitValue? base c with
    | some digit => number * base + digit
    | none => number) 0

end FragmentBuild
