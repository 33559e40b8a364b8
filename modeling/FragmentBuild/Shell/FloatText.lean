import FragmentBuild.Number.Binary64
import FragmentBuild.Shell.Arithmetic

/-! Floating-point numbers as texts: read from the front of a text, and printed with a number of
digits that is asked for. Everything is worked out exactly and rounded once. -/
namespace FragmentBuild.Shell.FloatText

def signAt (text : Bytes) : Bool × Bytes :=
  match text with
  | '-' :: rest => (true, rest)
  | '+' :: rest => (false, rest)
  | rest => (false, rest)

def afterWord? (word : String) (text : Bytes) : Option Bytes :=
  let length := word.length
  if (text.take length).map Char.toLower = word.toList then some (text.drop length) else none

def exponentAt (letter : Char) (text : Bytes) : Int × Bytes :=
  match text with
  | c :: rest =>
    if c.toLower ≠ letter then (0, text)
    else
      let (isNegative, rest) := signAt rest
      let (digits, rest) := rest.span (isDigit 10)
      if digits.isEmpty then (0, text)
      else
        let value : Int := numberOf 10 digits
        (if isNegative then -value else value, rest)
  | [] => (0, [])

/-- Digits with or without a point, as a number and how many stand after the point. -/
def digitsAt? (base : Nat) (text : Bytes) : Option (Nat × Nat × Bytes) :=
  let (whole, rest) := text.span (isDigit base)
  let (fraction, rest) :=
    match rest with
    | '.' :: more => more.span (isDigit base)
    | rest => ([], rest)
  if whole.isEmpty && fraction.isEmpty then none
  else some (numberOf base (whole ++ fraction), fraction.length, rest)

def ofHexadecimal (isNegative : Bool) (digits : Nat) (exponent : Int) : Binary64 :=
  if digits = 0 then .ofRatio isNegative 0 1
  else if 3000 < exponent then .infinity isNegative
  else if exponent < -3000 - 4 * (Nat.log2 digits) then .ofRatio isNegative 0 1
  else if 0 ≤ exponent then .ofRatio isNegative (digits * Nat.pow 2 exponent.toNat) 1
  else .ofRatio isNegative digits (Nat.pow 2 (-exponent).toNat)

/-- What has been read: a number, whether it is out of range, and the rest of the text. -/
structure Reading where
  value : Binary64
  isOutOfRange : Bool := false
  rest : Bytes

def withSign (isNegative : Bool) (value : Binary64) : Binary64 :=
  if isNegative then ⟨value.bits ||| ((1 : UInt64) <<< 63)⟩ else value

def ofDigits (value : Binary64) (digits : Nat) (rest : Bytes) : Reading :=
  { value, isOutOfRange := value.isInfinite || digits != 0 && value.significand == 0, rest }

def readAt? (text : Bytes) : Option Reading :=
  let (isNegative, body) := signAt (text.dropWhile isSpace)
  let word := fun (word : String) (value : Binary64) =>
    (afterWord? word body).map fun rest => { value := withSign isNegative value, rest : Reading }
  let hexadecimal : Option Reading := do
    let (digits, places, rest) ← digitsAt? 16 (← afterWord? "0x" body)
    let (exponent, rest) := exponentAt 'p' rest
    return ofDigits (ofHexadecimal isNegative digits (exponent - 4 * places)) digits rest
  let decimal : Option Reading := do
    let (digits, places, rest) ← digitsAt? 10 body
    let (exponent, rest) := exponentAt 'e' rest
    return ofDigits (.ofDecimal isNegative digits (exponent - places)) digits rest
  (word "infinity" (.infinity false)).orElse fun _ => (word "inf" (.infinity false)).orElse fun _ =>
    (word "nan" .nan).orElse fun _ => hexadecimal.orElse fun _ => decimal

/-- The magnitude of a finite number as a numerator over `2 ^ 1074`. -/
def numerator (value : Binary64) : Nat := value.significand * Nat.pow 2 value.binaryExponent

def inUnits (value : Binary64) (exponent : Int) : Nat :=
  if 0 ≤ exponent then
    Binary64.roundedQuotient (numerator value) (Nat.pow 10 exponent.toNat * Nat.pow 2 1074)
  else Binary64.roundedQuotient (numerator value * Nat.pow 10 (-exponent).toNat) (Nat.pow 2 1074)

def withPoint (places : Nat) (keepsPoint : Bool) (number : Nat) : Bytes :=
  let shown := paddedDigits 10 (places + 1) number
  let (whole, fraction) := shown.splitAt (shown.length - places)
  if places = 0 && !keepsPoint then whole else whole ++ '.' :: fraction

def fixed (value : Binary64) (places : Nat) (keepsPoint : Bool) : Bytes :=
  withPoint places keepsPoint (inUnits value (-places))

/-- The greatest exponent of ten that a number is not less than. -/
def magnitude (value : Binary64) : Int :=
  let whole := numerator value / Nat.pow 2 1074
  if whole ≠ 0 then (digits 10 whole).length - 1
  else
    let steps := (List.range 330).find? fun steps =>
      Nat.pow 2 1074 ≤ numerator value * Nat.pow 10 steps
    Int.negOfNat (steps.getD 0)

/-- One digit before the point and so many after it, and the exponent that belongs to them. -/
def scientific (value : Binary64) (places : Nat) : Nat × Int :=
  if value.significand = 0 then (0, 0)
  else
    let exponent := magnitude value
    let shown := inUnits value (exponent - places)
    if shown = Nat.pow 10 (places + 1) then (Nat.pow 10 places, exponent + 1) else (shown, exponent)

def exponentText (letter : Char) (width : Nat) (exponent : Int) : Bytes :=
  letter :: (if exponent < 0 then '-' else '+') :: paddedDigits 10 width exponent.natAbs

def exponential (value : Binary64) (places : Nat) (keepsPoint : Bool) : Bytes :=
  let (digits, exponent) := scientific value places
  withPoint places keepsPoint digits ++ exponentText 'e' 2 exponent

def withoutZeros (text : Bytes) : Bytes :=
  if text.contains '.' then
    ((text.reverse.dropWhile (· == '0')).dropWhile (· == '.')).reverse
  else text

/-- The shorter of the two forms, with a number of digits that count. -/
def general (value : Binary64) (precision : Nat) (keepsZeros : Bool) : Bytes :=
  let precision := max precision 1
  let (digits, exponent) := scientific value (precision - 1)
  let trim := if keepsZeros then id else withoutZeros
  if -4 ≤ exponent ∧ exponent < precision then
    trim (fixed value (precision - 1 - exponent).toNat keepsZeros)
  else trim (withPoint (precision - 1) keepsZeros digits) ++ exponentText 'e' 2 exponent

def hexadecimal (value : Binary64) (precision : Option Nat) (keepsPoint : Bool) : Bytes :=
  let exponent : Int :=
    if value.significand = 0 then 0 else (value.binaryExponent : Int) - 1022
  let (digits, places) :=
    match precision with
    | some places =>
      if places < 13 then
        (Binary64.roundedQuotient value.significand (Nat.pow 16 (13 - places)), places)
      else (value.significand * Nat.pow 16 (places - 13), places)
    | none =>
      let zeros := ((List.range 14).reverse.find? fun zeros =>
        value.significand % Nat.pow 16 zeros == 0).getD 0
      (value.significand / Nat.pow 16 zeros, 13 - zeros)
  let shown := (paddedDigits 16 (places + 1) digits).map Char.toLower
  let (whole, fraction) := shown.splitAt (shown.length - places)
  let point := if places = 0 && !keepsPoint then [] else ['.']
  ['0', 'x'] ++ whole ++ point ++ fraction ++ exponentText 'p' 1 exponent

def shown (conversion : Char) (value : Binary64) (precision : Option Nat) (alternative : Bool) :
    Bytes :=
  let text :=
    if value.isNaN then "nan".toList
    else if value.isInfinite then "inf".toList
    else
      match conversion.toLower with
      | 'f' => fixed value (precision.getD 6) alternative
      | 'e' => exponential value (precision.getD 6) alternative
      | 'g' => general value (precision.getD 6) alternative
      | _ => hexadecimal value precision alternative
  if conversion.isUpper then text.map Char.toUpper else text

end FragmentBuild.Shell.FloatText
