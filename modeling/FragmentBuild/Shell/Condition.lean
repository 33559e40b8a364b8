import FragmentBuild.Shell.Launch
import FragmentBuild.Shell.Redirect

/-! Conditions: questions about texts, numbers and files that are asked in words. -/
namespace FragmentBuild.Shell.Condition

inductive Sign where
  | stop
  | operand
  | unary (operator : String)
  | binary (operator : String)
  | negation
  | conjunction
  | disjunction
  | opening
  | closing
  deriving DecidableEq

def unaryOperators : List String :=
  ["-r", "-w", "-x", "-e", "-f", "-d", "-c", "-b", "-p", "-u", "-g", "-k", "-s", "-t", "-z", "-n",
    "-h", "-O", "-G", "-L", "-S"]

def binaryOperators : List String :=
  ["=", "!=", "<", ">", "-eq", "-ne", "-ge", "-gt", "-le", "-lt", "-nt", "-ot", "-ef"]

def signOf (word : Bytes) : Sign :=
  let text := toText word
  if unaryOperators.contains text then .unary text
  else if binaryOperators.contains text then .binary text
  else if text = "!" then .negation
  else if text = "-a" then .conjunction
  else if text = "-o" then .disjunction
  else if text = "(" then .opening
  else if text = ")" then .closing
  else .operand

/-- What the first of some words means. An operator that nothing follows, or a binary operator,
is no operator itself. -/
def signAt : List Bytes → Sign
  | [] => .stop
  | word :: rest =>
    match signOf word, rest with
    | .unary _, [] | .opening, [] => .operand
    | .unary text, second :: _ :: _ =>
      match signOf second with
      | .binary _ => .operand
      | _ => .unary text
    | sign, _ => sign

def malformed (operator message : String) : Action α :=
  Action.refuseText (if operator.isEmpty then message else operator ++ ": " ++ message)

def entryAt (name : Bytes) : Action (Option (Location × DiskEntry)) := do
  match ← Action.goalOf (shellPath name) with
  | .error _ => return none
  | .ok (.inl _) => return some ([], .sink)
  | .ok (.inr path) => do
    let state ← get
    let disk := state.system.disk
    match disk.aim state.process.working path with
    | .error _ => return none
    | .ok location =>
      if (Utility.at? location).isSome then return some (location, .file ⟨#[0]⟩ true)
      else return (disk.get? location).map (location, ·)

def isLink (name : Bytes) : Action Bool := do
  let state ← get
  match state.system.disk.find state.process.working (shellPath name) with
  | .ok (_, entry) => return entry.isLink
  | .error _ => return false

def aboutFile (operator : String) (name : Bytes) : Action Bool := do
  if operator = "-h" || operator = "-L" then return ← isLink name
  match operator, ← entryAt name with
  | _, none => return false
  | "-f", some (_, .file _ _) => return true
  | "-d", some (_, .directory) => return true
  | "-c", some (_, .sink) => return true
  | "-x", some (_, .directory) | "-s", some (_, .directory) => return true
  | "-x", some (_, .file _ isExecutable) => return isExecutable
  | "-s", some (_, .file contents _) => return contents.size != 0
  | operator, some _ => return ["-e", "-r", "-w", "-O", "-G"].contains operator

def one (operator : String) (word : Bytes) : Action Bool := do
  match operator with
  | "-z" => return word.isEmpty
  | "-n" => return !word.isEmpty
  | "-t" => do
    let _ ← Action.integer word
    return false
  | operator => aboutFile operator word

def numbers (relation : Int → Int → Bool) (first second : Bytes) : Action Bool := do
  let first ← Action.integer first
  return relation first (← Action.integer second)

def two (operator : String) (first second : Bytes) : Action Bool := do
  match operator with
  | "=" => return first == second
  | "!=" => return first != second
  | "<" => return decide (first < second)
  | ">" => return decide (second < first)
  | "-eq" => numbers (· == ·) first second
  | "-ne" => numbers (· != ·) first second
  | "-ge" => numbers (· ≥ ·) first second
  | "-gt" => numbers (· > ·) first second
  | "-le" => numbers (· ≤ ·) first second
  | "-lt" => numbers (· < ·) first second
  | "-ef" => do
    let first ← entryAt first
    let second ← entryAt second
    return first.isSome && first.map (·.1) == second.map (·.1)
  | _ => return false

mutual

def either (words : List Bytes) : Nat → Action (Bool × List Bytes)
  | 0 => malformed "" "too deep"
  | fuel + 1 => do
    let (first, words) ← both words fuel
    if signAt (words.drop 1) = .disjunction then
      let (second, words) ← either (words.drop 2) fuel
      return (first || second, words)
    else return (first, words)

def both (words : List Bytes) : Nat → Action (Bool × List Bytes)
  | 0 => malformed "" "too deep"
  | fuel + 1 => do
    let (first, words) ← negated words fuel
    if signAt (words.drop 1) = .conjunction then
      let (second, words) ← both (words.drop 2) fuel
      return (first && second, words)
    else return (first, words)

def negated (words : List Bytes) : Nat → Action (Bool × List Bytes)
  | 0 => malformed "" "too deep"
  | fuel + 1 => do
    if signAt words = .negation then
      match words.drop 1 with
      | [] => return (true, words)
      | rest => do
        let (value, words) ← negated rest fuel
        return (!value, words)
    else primary words fuel

def primary (words : List Bytes) : Nat → Action (Bool × List Bytes)
  | 0 => malformed "" "too deep"
  | fuel + 1 => do
    match signAt words, words with
    | _, [] => return (false, words)
    | .opening, _ :: rest =>
      if signAt rest = .closing then return (false, rest)
      else
        let (value, words) ← either rest fuel
        if signAt (words.drop 1) ≠ .closing then malformed "" "closing paren expected"
        return (value, words.drop 1)
    | .unary operator, _ :: rest =>
      match rest with
      | [] => malformed operator "argument expected"
      | word :: _ => return (← one operator word, rest)
    | _, word :: rest =>
      match signAt rest, rest with
      | .binary operator, _ :: second =>
        match second with
        | [] => malformed operator "argument expected"
        | other :: _ => return (← two operator word other, second)
      | _, _ => return (!word.isEmpty, words)

end

/-- The words without parentheses around three or four of them or a negation before two or three,
and whether there was one. -/
def stripped (words : List Bytes) : Bool × List Bytes :=
  if words.length = 3 || words.length = 4 then
    if words.head? = some ['('] && words.getLast? = some [')'] then
      (false, (words.drop 1).dropLast)
    else if words.head? = some ['!'] then (true, words.drop 1)
    else (false, words)
  else (false, words)

def status (words : List Bytes) : Action Nat := do
  if words.isEmpty then return 1
  if let [first, operator, second] := words then
    if let .binary operator := signOf operator then
      return if ← two operator first second then 0 else 1
  let (isNegated, words) := stripped words
  let (value, left) ← either words (4 * words.length + 8)
  match left with
  | word :: _ :: _ => malformed (toText word) "unexpected operator"
  | _ => return if value = isNegated then 1 else 0

end FragmentBuild.Shell.Condition
