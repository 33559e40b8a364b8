import FragmentBuild.Text.Scan
import FragmentBuild.Toml.Value

/-! TOML values of one word: truth values, integers, floating-point numbers, dates and
times. -/
namespace FragmentBuild.Toml

/-- Digits of a base in which single underscores may stand between digits; the result is
without them. -/
def ungroup (base : Nat) : List Char → Option (List Char)
  | [] => none
  | [c] => if isDigit base c then some [c] else none
  | c :: '_' :: rest => if isDigit base c then (ungroup base rest).map (c :: ·) else none
  | c :: rest => if isDigit base c then (ungroup base rest).map (c :: ·) else none

/-- A decimal whole number does not start with a zero, except for zero itself. -/
def decimalWhole (word : List Char) : Option (List Char) :=
  match word with
  | '0' :: _ :: _ => none
  | _ => ungroup 10 word

def signed (word : List Char) : Bool × List Char :=
  match word with
  | '-' :: rest => (true, rest)
  | '+' :: rest => (false, rest)
  | rest => (false, rest)

def integerOf (negative : Bool) (magnitude : Nat) : Option Value :=
  let number : Int := if negative then -magnitude else magnitude
  if -0x8000000000000000 ≤ number ∧ number < 0x8000000000000000 then
    some (.integer (.ofInt number))
  else none

/-- Only decimal integers have a sign. -/
def integer? (word : List Char) : Option Value :=
  match word with
  | '0' :: 'x' :: rest => do integerOf false (numberOf 16 (← ungroup 16 rest))
  | '0' :: 'o' :: rest => do integerOf false (numberOf 8 (← ungroup 8 rest))
  | '0' :: 'b' :: rest => do integerOf false (numberOf 2 (← ungroup 2 rest))
  | _ =>
    let (negative, whole) := signed word
    do integerOf negative (numberOf 10 (← decimalWhole whole))

def isExponentMark (c : Char) : Bool := c == 'e' || c == 'E'

def exponentOf? : List Char → Option Int
  | [] => some 0
  | mark :: rest =>
    if isExponentMark mark then
      let (negative, magnitude) := signed rest
      do
        let number : Int := numberOf 10 (← ungroup 10 magnitude)
        return if negative then -number else number
    else none

/-- A decimal number with a point, an exponent or both. Numbers above the largest are
refused; below the lowest they are infinite. -/
def decimal? (word : List Char) : Option Value := do
  let (negative, unsigned) := signed word
  let isBreak := fun c => c == '.' || isExponentMark c
  let whole ← decimalWhole (unsigned.takeWhile (!isBreak ·))
  let (fraction, rest) ←
    match unsigned.dropWhile (!isBreak ·) with
    | [] => none
    | '.' :: rest =>
      (ungroup 10 (rest.takeWhile (!isExponentMark ·))).map (·, rest.dropWhile (!isExponentMark ·))
    | rest => some ([], rest)
  let number := Binary64.ofParts negative whole fraction (← exponentOf? rest)
  if number = Binary64.infinity false then none else return .float number

def float? (word : List Char) : Option Value :=
  let (negative, unsigned) := signed word
  if unsigned = ['i', 'n', 'f'] then some (.float (Binary64.infinity negative))
  else if unsigned = ['n', 'a', 'n'] then some (.float Binary64.nan)
  else decimal? word

def twoDigits? (low high : Nat) (a b : Char) : Option Nat :=
  if isDigit 10 a && isDigit 10 b then
    let number := numberOf 10 [a, b]
    if low ≤ number ∧ number ≤ high then some number else none
  else none

def isLeapYear (year : Nat) : Bool := year % 4 == 0 && (year % 100 != 0 || year % 400 == 0)

def daysInMonth (year month : Nat) : Nat :=
  if month = 2 then if isLeapYear year then 29 else 28
  else if month ∈ [4, 6, 9, 11] then 30
  else 31

def date? : List Char → Option (List Char × List Char)
  | y₁ :: y₂ :: y₃ :: y₄ :: '-' :: m₁ :: m₂ :: '-' :: d₁ :: d₂ :: rest => do
    let year := [y₁, y₂, y₃, y₄]
    if !year.all (isDigit 10) then none
    let month ← twoDigits? 1 12 m₁ m₂
    let _ ← twoDigits? 1 (daysInMonth (numberOf 10 year) month) d₁ d₂
    return (year ++ ['-', m₁, m₂, '-', d₁, d₂], rest)
  | _ => none

/-- Fractions of a second are kept to nine digits and written without zeros at the end. -/
def secondFraction (digits : List Char) : List Char :=
  let kept := ((digits.take 9).reverse.dropWhile (· == '0')).reverse
  if kept.isEmpty then [] else '.' :: kept

def time? : List Char → Option (List Char × List Char)
  | h₁ :: h₂ :: ':' :: m₁ :: m₂ :: ':' :: s₁ :: s₂ :: rest => do
    let _ ← twoDigits? 0 23 h₁ h₂
    let _ ← twoDigits? 0 59 m₁ m₂
    let _ ← twoDigits? 0 60 s₁ s₂
    let time := [h₁, h₂, ':', m₁, m₂, ':', s₁, s₂]
    match rest with
    | '.' :: rest =>
      let digits := rest.takeWhile (isDigit 10)
      if digits.isEmpty then none
      else return (time ++ secondFraction digits, rest.dropWhile (isDigit 10))
    | rest => return (time, rest)
  | _ => none

/-- The distance to universal time, or nothing; a distance of zero is written with a
plus. -/
def offset? : List Char → Option (List Char)
  | [] => some []
  | ['Z'] => some ['Z']
  | ['z'] => some ['Z']
  | [sign, h₁, h₂, ':', m₁, m₂] => do
    if sign ≠ '+' ∧ sign ≠ '-' then none
    let hours ← twoDigits? 0 23 h₁ h₂
    let minutes ← twoDigits? 0 59 m₁ m₂
    let shown := if hours + minutes = 0 then '+' else sign
    return [shown, h₁, h₂, ':', m₁, m₂]
  | _ => none

def timeOfDay? (word : List Char) : Option (List Char) := do
  let (time, rest) ← time? word
  return time ++ (← offset? rest)

/-- A date, a date with a time, or a time alone, which has no distance to universal time. -/
def moment? (word : List Char) : Option Value :=
  match date? word with
  | some (date, []) => some (.moment (String.ofList date))
  | some (date, mark :: rest) =>
    if mark = 'T' ∨ mark = 't' then
      (timeOfDay? rest).map fun time => .moment (String.ofList (date ++ 'T' :: time))
    else none
  | none =>
    match time? word with
    | some (time, []) => some (.moment (String.ofList time))
    | _ => none

def scalar? (word : List Char) : Option Value :=
  if word = ['t', 'r', 'u', 'e'] then some (.boolean true)
  else if word = ['f', 'a', 'l', 's', 'e'] then some (.boolean false)
  else (moment? word).or ((float? word).or (integer? word))

def isWordChar (c : Char) : Bool :=
  c.isAlphanum || c == '+' || c == '-' || c == '_' || c == '.' || c == ':'

/-- A date may be set apart from its time by a space, so that a value of one word reaches
over two. -/
def spacedTime? (word rest : List Char) : Option (Value × List Char) :=
  match date? word, rest with
  | some (date, []), ' ' :: rest =>
    (timeOfDay? (rest.takeWhile isWordChar)).map fun time =>
      (.moment (String.ofList (date ++ 'T' :: time)), rest.dropWhile isWordChar)
  | _, _ => none

def readScalar (text : List Char) : Option (Value × List Char) :=
  let word := text.takeWhile isWordChar
  let rest := text.dropWhile isWordChar
  (spacedTime? word rest).or ((scalar? word).map (·, rest))

end FragmentBuild.Toml
