import FragmentBuild.Number.Digits
import FragmentBuild.Text.Scan

/-! Binary floating-point numbers of 64 bits, held by their bits. Reading rounds a decimal
to the nearest number, ties to even; writing gives the fewest digits that read back. All
arithmetic is exact, on natural numbers. -/
namespace FragmentBuild

structure Binary64 where
  bits : UInt64
  deriving DecidableEq, Repr

namespace Binary64

def isNegative (x : Binary64) : Bool := x.bits >>> 63 == 1

def exponentField (x : Binary64) : Nat := ((x.bits >>> 52) &&& 0x7ff).toNat

def fraction (x : Binary64) : Nat := (x.bits &&& 0xfffffffffffff).toNat

def isNaN (x : Binary64) : Bool := x.exponentField == 0x7ff && x.fraction != 0

def isInfinite (x : Binary64) : Bool := x.exponentField == 0x7ff && x.fraction == 0

/-- The magnitude of a finite number is `significand * 2 ^ (binaryExponent - 1074)`. -/
def significand (x : Binary64) : Nat :=
  if x.exponentField = 0 then x.fraction else x.fraction + Nat.pow 2 52

def binaryExponent (x : Binary64) : Nat := x.exponentField - 1

def signBit (negative : Bool) : Nat := if negative then Nat.pow 2 63 else 0

def infinity (negative : Bool) : Binary64 := ⟨.ofNat (signBit negative + 0x7ff * Nat.pow 2 52)⟩

def nan : Binary64 := ⟨.ofNat (0x7ff8 * Nat.pow 2 48)⟩

/-- The quotient rounded to the nearest natural number, ties to even. -/
def roundedQuotient (numerator denominator : Nat) : Nat :=
  let quotient := numerator / denominator
  let rest := numerator % denominator
  if 2 * rest < denominator then quotient
  else if denominator < 2 * rest then quotient + 1
  else quotient + quotient % 2

def ofRatio (negative : Bool) (numerator denominator : Nat) : Binary64 :=
  if numerator = 0 then ⟨.ofNat (signBit negative)⟩
  else
    let scaled := numerator * Nat.pow 2 1074
    let estimate := Nat.log2 scaled - Nat.log2 denominator - 52
    let shift :=
      if scaled / (denominator * Nat.pow 2 (estimate - 1)) < Nat.pow 2 53 then estimate - 1
      else estimate
    let rounded := roundedQuotient scaled (denominator * Nat.pow 2 shift)
    let carried := rounded = Nat.pow 2 53
    let exponent := if carried then shift + 1 else shift
    let significand := if carried then Nat.pow 2 52 else rounded
    if 2045 < exponent then infinity negative
    else ⟨.ofNat (signBit negative + exponent * Nat.pow 2 52 + significand)⟩

def ofDecimal (negative : Bool) (digits : Nat) (exponent : Int) : Binary64 :=
  let magnitude : Int := exponent + (Nat.toDigits 10 digits).length
  if digits = 0 then ofRatio negative 0 1
  else if 400 < magnitude then infinity negative
  else if magnitude < -400 then ofRatio negative 0 1
  else if 0 ≤ exponent then ofRatio negative (digits * Nat.pow 10 exponent.toNat) 1
  else ofRatio negative digits (Nat.pow 10 (-exponent).toNat)

/-- Whether the decimal `digits * 10 ^ exponent` reads back as `x`: it lies between the
midpoints to the neighbours, and on a midpoint only if the significand is even. -/
def readsBack (x : Binary64) (digits : Nat) (exponent : Int) : Bool :=
  let scale := Nat.pow 2 x.binaryExponent
  let low := (if x.fraction = 0 ∧ 1 < x.exponentField then 4 * x.significand - 1
    else 4 * x.significand - 2) * scale
  let high := (4 * x.significand + 2) * scale
  let (point, unit) :=
    if 0 ≤ exponent then (digits * Nat.pow 10 exponent.toNat * Nat.pow 2 1076, 1)
    else (digits * Nat.pow 2 1076, Nat.pow 10 (-exponent).toNat)
  if x.significand % 2 = 0 then low * unit ≤ point ∧ point ≤ high * unit
  else low * unit < point ∧ point < high * unit

/-- The multiples of `10 ^ exponent` around `x`, the nearer one first; of two at the same
distance the greater comes first. -/
def neighbours (x : Binary64) (exponent : Int) : List Nat :=
  let magnitude := x.significand * Nat.pow 2 x.binaryExponent
  let (numerator, denominator) :=
    if 0 ≤ exponent then (magnitude, Nat.pow 10 exponent.toNat * Nat.pow 2 1074)
    else (magnitude * Nat.pow 10 (-exponent).toNat, Nat.pow 2 1074)
  let below := numerator / denominator
  if 2 * (numerator % denominator) < denominator then [below, below + 1] else [below + 1, below]

def shortestFrom (x : Binary64) (exponent : Int) : Nat → Nat × Int
  | 0 => (0, 0)
  | steps + 1 =>
    match (x.neighbours exponent).find? fun digits => 0 < digits && x.readsBack digits exponent with
    | some digits => (digits, exponent)
    | none => shortestFrom x (exponent - 1) steps

/-- The decimal `digits * 10 ^ exponent` with the fewest digits that reads back as the
magnitude of `x`, and of those the nearest. -/
def shortest (x : Binary64) : Nat × Int := shortestFrom x 309 660

def positional (digits : Nat) (exponent : Int) : List Char :=
  let plain := FragmentBuild.digits 10 digits
  if 0 ≤ exponent then plain ++ List.replicate exponent.toNat '0' ++ ['.', '0']
  else
    let places := (-exponent).toNat
    let padded := List.replicate (places + 1 - plain.length) '0' ++ plain
    padded.take (padded.length - places) ++ '.' :: padded.drop (padded.length - places)

/-- A number as text: positional, with a point and at least one digit on both sides. -/
def render (x : Binary64) : List Char :=
  if x.isNaN then ['n', 'a', 'n']
  else
    let sign := if x.isNegative then ['-'] else []
    if x.isInfinite then sign ++ ['i', 'n', 'f']
    else if x.significand = 0 then sign ++ ['0', '.', '0']
    else
      let (digits, exponent) := x.shortest
      sign ++ positional digits exponent

/-- The number that a decimal with optional point and exponent is nearest to. The parts are
digits only; `exponent` carries its sign. -/
def ofParts (negative : Bool) (whole fraction : List Char) (exponent : Int) : Binary64 :=
  ofDecimal negative (numberOf 10 (whole ++ fraction)) (exponent - fraction.length)

def exponent? (text : List Char) : Option Int :=
  let (negative, rest) :=
    match text with
    | '-' :: rest => (true, rest)
    | '+' :: rest => (false, rest)
    | rest => (false, rest)
  if rest.isEmpty || !rest.all (isDigit 10) then none
  else some (if negative then -(numberOf 10 rest : Int) else numberOf 10 rest)

/-- Reads a whole text as a number: a sign, digits with an optional point, an optional
exponent, or a word for infinity or not-a-number in any case. -/
def parse? (text : List Char) : Option Binary64 :=
  let (negative, body) :=
    match text with
    | '-' :: rest => (true, rest)
    | '+' :: rest => (false, rest)
    | rest => (false, rest)
  let word := String.ofList (body.map Char.toLower)
  if word = "inf" ∨ word = "infinity" then some (infinity negative)
  else if word = "nan" then some nan
  else
    let (whole, rest) := body.span (isDigit 10)
    let (fraction, rest) :=
      match rest with
      | '.' :: rest => rest.span (isDigit 10)
      | rest => ([], rest)
    if whole.isEmpty && fraction.isEmpty then none
    else
      match rest with
      | [] => some (ofParts negative whole fraction 0)
      | e :: rest =>
        if e = 'e' ∨ e = 'E' then (exponent? rest).map (ofParts negative whole fraction ·)
        else none

end Binary64

end FragmentBuild
