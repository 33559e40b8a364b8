import FragmentBuild.Shell.FloatText

/-! Formatted printing: escapes, and directives that each show one argument. A format is used
again for as long as it takes arguments and some are left. -/
namespace FragmentBuild.Shell

def simpleEscapes : List (Char × Nat) :=
  [('\\', 92), ('a', 7), ('b', 8), ('e', 27), ('f', 12), ('n', 10), ('r', 13), ('t', 9), ('v', 11)]

/-- The character that follows a backslash stands for, and the rest. A backslash before
anything else stands for itself. -/
def escape (text : Bytes) : Char × Bytes :=
  match text with
  | [] => ('\\', [])
  | c :: rest =>
    match simpleEscapes.lookup c with
    | some code => (Char.ofNat code, rest)
    | none =>
      let digits := (text.take 3).takeWhile (isDigit 8)
      if digits.isEmpty then ('\\', text)
      else (Char.ofNat (numberOf 8 digits % 256), text.drop digits.length)

/-- The text with its escapes carried out, and whether one of them ends all printing. -/
def unescaped : Nat → Bytes → Bytes × Bool
  | 0, text => (text, false)
  | _, [] => ([], false)
  | fuel + 1, '\\' :: rest =>
    match rest with
    | 'c' :: _ => ([], true)
    | _ =>
      let rest :=
        match rest with
        | '0' :: c :: more => if isDigit 8 c then c :: more else rest
        | _ => rest
      let (c, rest) := escape rest
      let (more, ended) := unescaped fuel rest
      (c :: more, ended)
  | fuel + 1, c :: rest =>
    let (more, ended) := unescaped fuel rest
    (c :: more, ended)

inductive Amount where
  | none
  | fixed (count : Nat)
  /-- The next argument. -/
  | given

structure Directive.Field where
  flags : List Char
  width : Amount
  precision : Amount
  conversion : Char

inductive Directive where
  | text (c : Char)
  | field (field : Directive.Field)
  /-- A field that asks for nothing known, and what is wrong with it. -/
  | unknown (complaint : Bytes)

namespace Directive.Field

def isSigned (field : Directive.Field) : Bool :=
  field.conversion == 'd' || field.conversion == 'i'

def sign (field : Directive.Field) (isNegative : Bool) : Bytes :=
  if isNegative then ['-']
  else if field.flags.contains '+' then ['+']
  else if field.flags.contains ' ' then [' ']
  else []

end Directive.Field

def amount (text : Bytes) : Amount × Bytes :=
  match text with
  | '*' :: rest => (.given, rest)
  | text =>
    let (digits, rest) := text.span (isDigit 10)
    (if digits.isEmpty then .none else .fixed (numberOf 10 digits), rest)

def fieldAt (text : Bytes) : Directive × Bytes :=
  let (flags, rest) := text.span ("#-+ 0".toList.contains ·)
  let (width, rest) := amount rest
  let (precision, rest) :=
    match rest with
    | '.' :: rest =>
      match amount rest with
      | (.none, rest) => (.fixed 0, rest)
      | result => result
    | rest => (.none, rest)
  match rest with
  | c :: rest =>
    if "sbcdiuoxXaAeEfFgG".toList.contains c then (.field ⟨flags, width, precision, c⟩, rest)
    else
      (.unknown ('%' :: text.take (text.length - rest.length) ++ ofString ": invalid directive"),
        rest)
  | [] => (.unknown (ofString "missing format character"), [])

def directives : Nat → Bytes → List Directive
  | 0, _ | _, [] => []
  | fuel + 1, '\\' :: rest =>
    let (c, rest) := escape rest
    .text c :: directives fuel rest
  | fuel + 1, '%' :: '%' :: rest => .text '%' :: directives fuel rest
  | fuel + 1, '%' :: rest =>
    let (directive, rest) := fieldAt rest
    directive :: directives fuel rest
  | fuel + 1, c :: rest => .text c :: directives fuel rest

/-- What is wrong with an argument of which `rest` is no part of a number. -/
def numberComplaint (text rest : Bytes) (isOutOfRange : Bool) : Option String :=
  if rest.isEmpty then if isOutOfRange then some "Numerical result out of range" else none
  else if rest.length = text.length then some "expected numeric value"
  else some "not completely converted"

def quotedNumber? (text : Bytes) : Option Nat :=
  match text with
  | '\'' :: rest | '"' :: rest => some ((rest.head?.map Char.toNat).getD 0)
  | _ => none

def anyBaseAt? (text : Bytes) : Option (Nat × Bytes) :=
  match text with
  | '0' :: b :: c :: _ =>
    if b.toLower = 'b' && isDigit 2 c then
      let (digits, rest) := (text.drop 2).span (isDigit 2)
      some (numberOf 2 digits, rest)
    else naturalAt? text
  | _ => naturalAt? text

/-- The whole number that an argument stands for, and what is wrong with it. Without a sign,
numbers go round at `2 ^ 64`. -/
def numberIn (isSigned : Bool) (text : Bytes) : Int × Option String :=
  match quotedNumber? text with
  | some value => (value, none)
  | none =>
    match integerAt? anyBaseAt? text with
    | none => (0, numberComplaint text text false)
    | some (value, rest) =>
      let limit := Nat.pow 2 64
      let held : Int :=
        if isSigned then (clamp value).toInt
        else if limit ≤ value.natAbs then limit - 1
        else value % limit
      let isOutOfRange := if isSigned then held != value else decide (limit ≤ value.natAbs)
      (held, numberComplaint text rest isOutOfRange)

def floatIn (text : Bytes) : Binary64 × Option String :=
  match quotedNumber? text with
  | some value => (.ofRatio false value 1, none)
  | none =>
    match FloatText.readAt? text with
    | none => (.ofRatio false 0 1, numberComplaint text text false)
    | some reading =>
      (reading.value, numberComplaint text reading.rest reading.isOutOfRange)

structure Printed where
  /-- The characters printed, last first. -/
  output : Bytes := []
  complaints : List Bytes := []
  arguments : List Bytes
  took : Bool := false
  ended : Bool := false
  /-- Whether the format itself is wrong. -/
  failed : Bool := false

namespace Printed

def put (printed : Printed) (text : Bytes) : Printed :=
  { printed with output := text.reverse ++ printed.output }

def take (printed : Printed) : Bytes × Printed :=
  (printed.arguments.head?.getD [],
    { printed with arguments := printed.arguments.drop 1, took := true })

def takeAs (printed : Printed) (read : Bytes → α × Option String) : α × Printed :=
  let (argument, printed) := printed.take
  let (value, complaint) := read argument
  (value, { printed with
    complaints := printed.complaints ++
      (complaint.map fun text => argument ++ ofString (": " ++ text)).toList })

def takeAmount (printed : Printed) : Amount → Option Int × Printed
  | .none => (none, printed)
  | .fixed count => (some count, printed)
  | .given =>
    let (value, printed) := printed.takeAs (numberIn true)
    (some value, printed)

def fill (left : Bool) (filler : Char) (width : Nat) (text : Bytes) : Bytes :=
  let blanks := List.replicate (width - text.length) filler
  if left then text ++ blanks else blanks ++ text

def numeral (field : Directive.Field) (precision : Option Nat) (value : Int) : Bytes × Bytes :=
  let signed := field.isSigned
  let magnitude := value.natAbs
  let base := if field.conversion == 'o' then 8 else if "xX".toList.contains field.conversion
    then 16 else 10
  let digits := paddedDigits base (precision.getD 1) magnitude
  let digits := if field.conversion == 'x' then digits.map Char.toLower else digits
  let alternative := field.flags.contains '#' && magnitude != 0
  let sign :=
    if signed then field.sign (value < 0)
    else if alternative && base == 16 then ['0', field.conversion]
    else if alternative && base == 8 then ['0']
    else []
  (sign, digits)

def putField (printed : Printed) (field : Directive.Field) : Printed :=
  let (width, printed) := printed.takeAmount field.width
  let (precision, printed) := printed.takeAmount field.precision
  let left := field.flags.contains '-' || (width.getD 0) < 0
  let width := (width.getD 0).natAbs
  let precision := precision.bind fun count => if count < 0 then none else some count.toNat
  let cut := fun (text : Bytes) => (precision.map text.take).getD text
  match field.conversion with
  | 's' =>
    let (argument, printed) := printed.take
    printed.put (fill left ' ' width (cut argument))
  | 'b' =>
    let (argument, printed) := printed.take
    let (text, ended) := unescaped (argument.length + 1) argument
    { printed.put (fill left ' ' width (cut text)) with ended }
  | 'c' =>
    let (argument, printed) := printed.take
    printed.put (fill left ' ' width [argument.headD '\x00'])
  | conversion =>
    let putNumber := fun (printed : Printed) (takesZeros : Bool) (sign digits : Bytes) =>
      if field.flags.contains '0' && !left && takesZeros then
        printed.put (sign ++ fill false '0' (width - sign.length) digits)
      else printed.put (fill left ' ' width (sign ++ digits))
    if "diuoxX".toList.contains conversion then
      let (value, printed) := printed.takeAs (numberIn field.isSigned)
      let (sign, digits) := numeral field precision value
      putNumber printed precision.isNone sign digits
    else
      let (value, printed) := printed.takeAs floatIn
      let isFinite := !value.isNaN && !value.isInfinite
      let shown := FloatText.shown conversion value precision (field.flags.contains '#')
      let isHexadecimal := isFinite && conversion.toLower == 'a'
      let sign := field.sign value.isNegative ++ if isHexadecimal then shown.take 2 else []
      putNumber printed isFinite sign (if isHexadecimal then shown.drop 2 else shown)

def putDirective (printed : Printed) : Directive → Printed
  | .text c => printed.put [c]
  | .field field => printed.putField field
  | .unknown complaint =>
    { printed with
      ended := true
      failed := true
      complaints := printed.complaints ++ [complaint] }

/-- Goes through a format again and again, for as long as it has arguments to take. -/
def rounds (format : List Directive) : Nat → Printed → Printed
  | 0, printed => printed
  | fuel + 1, printed =>
    let printed := format.foldl (fun printed directive =>
      if printed.ended then printed else printed.putDirective directive)
      { printed with took := false }
    if printed.ended || !printed.took || printed.arguments.isEmpty then printed
    else rounds format fuel printed

end Printed

def formatted (format : Bytes) (arguments : List Bytes) : Printed :=
  Printed.rounds (directives (format.length + 1) format) (arguments.length + 1) { arguments }

end FragmentBuild.Shell
