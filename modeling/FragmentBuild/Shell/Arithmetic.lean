import FragmentBuild.Number.Digits
import FragmentBuild.Shell.Script
import FragmentBuild.Text.Scan

/-! Arithmetic in words: whole numbers of 64 bits, variables, and the operators on them. A text is
worked out while it is read, so that what is wrong with it first is found first. -/
namespace FragmentBuild.Shell

/-- A number of the given base that is held to the range of 64 bits. -/
def clamp (value : Int) : Int64 :=
  if value < Int64.minValue.toInt then Int64.minValue
  else if Int64.maxValue.toInt < value then Int64.maxValue
  else Int64.ofInt value

def decimalAt? (text : Bytes) : Option (Nat × Bytes) :=
  let (digits, rest) := text.span (isDigit 10)
  if digits.isEmpty then none else some (numberOf 10 digits, rest)

/-- A number without a sign at the front of a text, and what follows it. Its base is ten, or what
its first digits say. -/
def naturalAt? (text : Bytes) : Option (Nat × Bytes) :=
  let inBase := fun (base : Nat) (text : Bytes) =>
    let (digits, rest) := text.span (isDigit base)
    if digits.isEmpty then none else some (numberOf base digits, rest)
  match text with
  | '0' :: 'x' :: c :: rest | '0' :: 'X' :: c :: rest =>
    if isDigit 16 c then inBase 16 (c :: rest) else some (0, text.drop 1)
  | '0' :: _ => inBase 8 text
  | _ => inBase 10 text

def isSpace (c : Char) : Bool := c == ' ' || '\t' ≤ c && c ≤ '\r'

def integerAt? (readNatural : Bytes → Option (Nat × Bytes)) (text : Bytes) :
    Option (Int × Bytes) :=
  match text.dropWhile isSpace with
  | '-' :: rest => (readNatural rest).map fun (value, rest) => (-(value : Int), rest)
  | '+' :: rest => (readNatural rest).map fun (value, rest) => ((value : Int), rest)
  | rest => (readNatural rest).map fun (value, rest) => ((value : Int), rest)

inductive ArithmeticFault where
  | malformed (message : String)
  /-- The value of a variable is no number. -/
  | notANumber (text : Bytes)
  | readOnly (name : Bytes)
  deriving DecidableEq

namespace Arithmetic

inductive Token where
  | number (value : Int64)
  | name (text : Bytes)
  | sign (text : String)
  | stop
  | unknown
  deriving DecidableEq

def signs : List String :=
  ["<<=", ">>=", "<<", ">>", "<=", ">=", "==", "!=", "&&", "||", "+=", "-=", "*=", "/=", "%=",
    "&=", "|=", "^=", "+", "-", "*", "/", "%", "<", ">", "!", "~", "&", "|", "^", "?", ":", "=",
    "(", ")"]

def tokenAt (text : Bytes) : Token × Bytes :=
  match text.dropWhile fun c => c == ' ' || c == '\t' || c == '\n' with
  | [] => (.stop, [])
  | c :: rest =>
    if c.isDigit then
      match naturalAt? (c :: rest) with
      | some (value, rest) => (.number (clamp value), rest)
      | none => (.unknown, rest)
    else if isNameStart c then
      let (name, rest) := (c :: rest).span isNameChar
      (.name name, rest)
    else
      match signs.findSome? fun sign => (restAfter? sign.toList (c :: rest)).map (sign, ·) with
      | some (sign, rest) => (.sign sign, rest)
      | none => (.unknown, c :: rest)

/-- How much binary operators bind: less for those that bind more. -/
def precedence? (token : Token) : Option Nat :=
  match token with
  | .sign "*" | .sign "/" | .sign "%" => some 0
  | .sign "+" | .sign "-" => some 1
  | .sign "<<" | .sign ">>" => some 2
  | .sign "<" | .sign "<=" | .sign ">" | .sign ">=" => some 3
  | .sign "==" | .sign "!=" => some 4
  | .sign "&" => some 5
  | .sign "^" => some 6
  | .sign "|" => some 7
  | _ => none

/-- The operator that an assignment carries out first, if it is an assignment. -/
def assigned? (token : Token) : Option String :=
  match token with
  | .sign text =>
    if ["=", "+=", "-=", "*=", "/=", "%=", "&=", "|=", "^=", "<<=", ">>="].contains text then
      some (text.dropEnd 1).toString
    else none
  | _ => none

def truth (value : Bool) : Int64 := if value then 1 else 0

structure Scope where
  value : Bytes → Bytes
  isReadOnly : Bytes → Bool

/-- How far a text has been worked out: what is left of it, the token after what has been worked
out, and the variables that have been set, last first. -/
structure Progress where
  rest : Bytes
  next : Token := .stop
  changes : List (Bytes × Int64) := []

abbrev Working := StateT Progress (Except ArithmeticFault)

def fail (message : String) : Working α := throw (.malformed message)

def scan : Working Token :=
  modifyGet fun progress =>
    let (token, rest) := tokenAt progress.rest
    (token, { progress with rest })

def setNext (next : Token) : Working Unit := modify ({ · with next })

def combine (operator : String) (left right : Int64) : Working Int64 :=
  match operator with
  | "+" => return left + right
  | "-" => return left - right
  | "*" => return left * right
  | "/" => if right = 0 then fail "division by zero" else return left / right
  | "%" => if right = 0 then fail "division by zero" else return left % right
  | "<" => return truth (left < right)
  | ">" => return truth (right < left)
  | "<=" => return truth (left ≤ right)
  | ">=" => return truth (right ≤ left)
  | "==" => return truth (left == right)
  | "!=" => return truth (left != right)
  | "<<" => return left <<< right
  | ">>" => return left >>> right
  | "&" => return left &&& right
  | "|" => return left ||| right
  | "^" => return left ^^^ right
  | _ => return right

variable (scope : Scope)

def valueOf (name : Bytes) : Working Int64 := do
  match (← get).changes.lookup name with
  | some value => return value
  | none =>
    let text := scope.value name
    match integerAt? naturalAt? text with
    | some (value, rest) =>
      if rest.all isSpace then return clamp value else throw (.notANumber text)
    | none => if text.all isSpace then return 0 else throw (.notANumber text)

def assign (name : Bytes) (value : Int64) : Working Int64 := do
  if scope.isReadOnly name then throw (.readOnly name)
  modify fun progress => { progress with changes := (name, value) :: progress.changes }
  return value

mutual

/-- An operand without a binary operator: its first token and the one after that are given.
Nothing is looked up or set in what is skipped. -/
def primary (token next : Token) (skipped : Bool) : Nat → Working Int64
  | 0 => fail "expecting primary"
  | fuel + 1 =>
    match token with
    | .sign "(" => do
      let result ← assignment next skipped fuel
      if (← get).next ≠ .sign ")" then fail "expecting ')'"
      setNext (← scan)
      return result
    | .number value => do
      setNext next
      return value
    | .name name => do
      setNext next
      if skipped then return 0 else valueOf scope name
    | .sign "+" => do primary next (← scan) skipped fuel
    | .sign "-" => return -(← primary next (← scan) skipped fuel)
    | .sign "!" => return truth ((← primary next (← scan) skipped fuel) == 0)
    | .sign "~" => return ~~~(← primary next (← scan) skipped fuel)
    | _ => fail "expecting primary"

def joined (first : Int64) (operator : String) (strength limit : Nat) (skipped : Bool) :
    Nat → Working Int64
  | 0 => fail "expecting primary"
  | fuel + 1 => do
    let token ← scan
    let second ← primary token (← scan) skipped fuel
    let second ←
      match (← get).next, precedence? (← get).next with
      | .sign inner, some tighter =>
        if tighter < strength then joined second inner tighter strength skipped fuel
        else pure second
      | _, _ => pure second
    let value ← if skipped then pure second else combine operator first second
    match (← get).next, precedence? (← get).next with
    | .sign outer, some looser =>
      if limit ≤ looser then return value else joined value outer looser limit skipped fuel
    | _, _ => return value

def operation (token next : Token) (skipped : Bool) : Nat → Working Int64
  | 0 => fail "expecting primary"
  | fuel + 1 => do
    let first ← primary token next skipped fuel
    match (← get).next, precedence? (← get).next with
    | .sign operator, some strength => joined first operator strength 8 skipped fuel
    | _, _ => return first

def conjunction (token next : Token) (skipped : Bool) : Nat → Working Int64
  | 0 => fail "expecting primary"
  | fuel + 1 => do
    let first ← operation token next skipped fuel
    if (← get).next ≠ .sign "&&" then return first
    else
      let token ← scan
      let second ← conjunction token (← scan) (skipped || first == 0) fuel
      return truth (first != 0 && second != 0)

def disjunction (token next : Token) (skipped : Bool) : Nat → Working Int64
  | 0 => fail "expecting primary"
  | fuel + 1 => do
    let first ← conjunction token next skipped fuel
    if (← get).next ≠ .sign "||" then return first
    else
      let token ← scan
      let second ← disjunction token (← scan) (skipped || first != 0) fuel
      return truth (first != 0 || second != 0)

def conditional (token next : Token) (skipped : Bool) : Nat → Working Int64
  | 0 => fail "expecting primary"
  | fuel + 1 => do
    let condition ← disjunction token next skipped fuel
    if (← get).next ≠ .sign "?" then return condition
    else
      let yes ← assignment (← scan) (skipped || condition == 0) fuel
      if (← get).next ≠ .sign ":" then fail "expecting ':'"
      let token ← scan
      let no ← conditional token (← scan) (skipped || condition != 0) fuel
      return if condition = 0 then no else yes

def assignment (token : Token) (skipped : Bool) : Nat → Working Int64
  | 0 => fail "expecting primary"
  | fuel + 1 => do
    let next ← scan
    match token, assigned? next with
    | .name name, some operator => do
      let value ← assignment (← scan) skipped fuel
      if skipped then return value
      else if operator.isEmpty then assign scope name value
      else assign scope name (← combine operator (← valueOf scope name) value)
    | token, _ => conditional token next skipped fuel

end

/-- The value of a text and the variables that it sets, last first. -/
def value (source : Bytes) : Except ArithmeticFault (Int64 × List (Bytes × Int64)) := do
  let fuel := 8 * source.length + 32
  let whole : Working Int64 := do
    let result ← assignment scope (← scan) false fuel
    if (← get).next ≠ .stop then fail "expecting EOF"
    return result
  let (result, progress) ← whole.run { rest := source }
  return (result, progress.changes)

end Arithmetic

end FragmentBuild.Shell
