import FragmentBuild.Shell.Field
import FragmentBuild.Shell.Process

/-! What words stand for. The values of parameters, what scripts print and what sums come to take
the places of the parts of a word. -/
namespace FragmentBuild.Shell

structure Purpose where
  /-- The word is split into fields. -/
  splits : Bool := false
  /-- Nothing in the word is split. -/
  isQuoted : Bool := false
  /-- A tilde at the front stands for a directory. -/
  hasTilde : Bool := false
  /-- So does one after the first equals sign and after colons. -/
  assigns : Bool := false
  /-- The word stands within a parameter, and what is not quoted in it is split. -/
  isOperand : Bool := false

def endsTilde (assigns : Bool) : Part → Bool
  | .bare c => c == '/' || assigns && c == ':'
  | _ => false

def withHomes (home : Bytes → Option Bytes) (assigns afterEquals atTilde : Bool) : Nat → Word → Word
  | 0, word => word
  | _, [] => []
  | fuel + 1, .bare c :: rest =>
    if c = '~' && atTilde then
      let (name, after) := rest.span fun part => !endsTilde assigns part
      match (Word.plain? name).bind home with
      | some directory => directory.map .quoted ++ withHomes home assigns afterEquals false fuel after
      | none => .bare c :: withHomes home assigns afterEquals false fuel rest
    else
      let isEquals := c == '=' && !afterEquals
      .bare c :: withHomes home assigns (afterEquals || c == '=')
        (assigns && (isEquals || c == ':')) fuel rest
  | fuel + 1, part :: rest => part :: withHomes home assigns afterEquals false fuel rest

/-- The parts of a word, each with whether it stands in quotes. All arguments in quotes of their
own stand for no field if there are none. -/
def piecesOf : Bool → Word → List (Bool × Part)
  | false, .mark :: .parameter ['@'] .value emptyToo operand :: .mark :: rest =>
    (true, .parameter ['@'] .value emptyToo operand) :: piecesOf false rest
  | inQuotes, .mark :: rest => (inQuotes, .mark) :: piecesOf (!inQuotes) rest
  | inQuotes, part :: rest => (inQuotes, part) :: piecesOf inQuotes rest
  | _, [] => []

/-- Joins rows of atoms that stand beside each other and are both set apart or both not. -/
def joinRows (rows : List (Bool × List Atom)) : List (Bool × List Atom) :=
  rows.foldr (fun row joined =>
    match joined with
    | next :: rest =>
      if row.1 = next.1 then (row.1, row.2 ++ next.2) :: rest else row :: joined
    | [] => [row]) []

/-- Rows of atoms in which those that are set apart are split. -/
def inStretches (rows : List (Bool × List Atom)) : List Atom :=
  (joinRows rows).flatMap fun (isApart, atoms) =>
    if isApart then Atom.stretch false atoms else atoms

def optionLetters : List (String × Char) :=
  [("nounset", 'u'), ("notify", 'b'), ("allexport", 'a'), ("noclobber", 'C'), ("emacs", 'E'),
    ("vi", 'V'), ("verbose", 'v'), ("xtrace", 'x'), ("stdin", 's'), ("noexec", 'n'),
    ("monitor", 'm'), ("interactive", 'i'), ("ignoreeof", 'I'), ("noglob", 'f'), ("errexit", 'e')]

namespace Action

def separators : Action Bytes :=
  return (← value? "IFS".toList).getD [' ', '\t', '\n']

def homes : Action (Bytes → Option Bytes) := do
  let own ← value? "HOME".toList
  return fun name =>
    if name.isEmpty then own
    else if name = "root".toList then some "/root".toList
    else none

/-- The value of a parameter other than all arguments. -/
def parameter? (name : Bytes) : Action (Option Bytes) := do
  let process ← process
  match name with
  | ['#'] => return some (numeral process.arguments.length)
  | ['?'] => return some (numeral process.status)
  | ['$'] => return some (numeral process.root)
  | ['!'] => return process.lastJob.map fun job => numeral job
  | ['-'] =>
    return some (optionLetters.filterMap fun (name, letter) =>
      if process.options.contains name then some letter else none)
  | ['0'] => return some process.name
  | name =>
    if name.all Char.isDigit then
      let number := numberOf 10 name
      return if number = 0 then some process.name else process.arguments[number - 1]?
    else value? name

/-- All arguments as one value. In a word that is split, they come apart again. -/
def argumentAtoms (purpose : Purpose) (isQuoted isList : Bool) : Action (List Atom) := do
  let process ← process
  let separators ← value? "IFS".toList
  let apart := purpose.splits && (isList || !isQuoted)
  let gap : Bytes :=
    if apart && isQuoted then ['\x00']
    else
      match separators with
      | none => [' ']
      | some text => if apart then ['\x00'] else text.take 1
  let between : List Atom := gap.map fun c => .glyph (.char c (isQuoted && !apart))
  return between.intercalate (process.arguments.map (Atom.ofBytes isQuoted))

def refuseUnset (name : Bytes) (reason : Bytes) : Action α :=
  refuse (name ++ [':', ' '] ++ reason)

def noteChanges (changes : List (Bytes × Int64)) : Action Unit :=
  changes.reverse.forM fun (name, value) => setVariable name (numeral value.toInt) false

def sum (source : Bytes) : Action Bytes := do
  let process ← process
  let scope : Arithmetic.Scope :=
    { value := fun name => ((process.bindings.lookup name).bind (·.value)).getD []
      isReadOnly := fun name => (process.bindings.lookup name).any (·.isReadOnly) }
  match Arithmetic.value scope source with
  | .ok (value, changes) => do
    noteChanges changes
    return numeral value.toInt
  | .error (.malformed message) =>
    refuse (ofString ("arithmetic expression: " ++ message ++ ": \"") ++ source ++ ['"'])
  | .error (.notANumber text) => refuseNumber text
  | .error (.readOnly name) => refuse (name ++ ofString ": is read only")

variable (printed : Command → Action Bytes)

mutual

def expandParts (purpose : Purpose) (word : Word) : Nat → Action (List Atom)
  | 0 => return []
  | fuel + 1 => do
    let home ← homes
    let word :=
      if purpose.hasTilde || purpose.assigns then
        withHomes home purpose.assigns false purpose.hasTilde (word.length + 1) word
      else word
    let rows ← (piecesOf false word).mapM fun (inQuotes, part) => do
      match part with
      | .bare c =>
        let apart := purpose.isOperand && !purpose.isQuoted && !inQuotes
        return (apart, [Atom.glyph (.char c false)])
      | .quoted c => return (false, [Atom.glyph (.char c true)])
      | .mark => return (false, [Atom.glyph .mark])
      | part => return (false, ← expandPart { purpose with
          isQuoted := purpose.isQuoted || inQuotes, hasTilde := false } part fuel)
    return inStretches rows

def expandPart (purpose : Purpose) (part : Part) : Nat → Action (List Atom)
  | 0 => return []
  | fuel + 1 => do
    let shown := fun (text : Bytes) =>
      let atoms := Atom.ofBytes purpose.isQuoted text
      if purpose.isQuoted then atoms else Atom.stretch false atoms
    match part with
    | .parameter name use emptyToo operand => expandUse purpose name use emptyToo operand fuel
    | .command none => return shown []
    | .command (some script) => return shown (← printed script)
    | .arithmetic expression => do
      let source := Atom.text (← expandParts {} expression fuel)
      return shown (← sum source)
    | _ => return []

def expandUse (purpose : Purpose) (name : Bytes) (use : Use) (emptyToo : Bool) (operand : Word) :
    Nat → Action (List Atom)
  | 0 => return []
  | fuel + 1 => do
    if use = .malformed then refuseText "Bad substitution"
    let { splits, isQuoted, .. } := purpose
    let isArguments := name == ['@'] || name == ['*']
    let splits := splits && use != .length
    let valueAtoms : Action (Option (List Atom)) := do
      if isArguments then
        return some (← argumentAtoms { purpose with splits } isQuoted (name == ['@']))
      else return (← parameter? name).map (Atom.ofBytes isQuoted)
    let shown := fun (atoms : List Atom) => do
      let hasArguments := !(← process).arguments.isEmpty
      if !isQuoted then return Atom.stretch false atoms
      else if name = ['@'] && hasArguments then return Atom.stretch true atoms
      else return atoms
    let inOperand : Purpose := { purpose with hasTilde := true, isOperand := true }
    let value ← valueAtoms
    let isMissing := value.all fun atoms => emptyToo && atoms.isEmpty
    match use with
    | .instead => if isMissing then return [] else expandParts inOperand operand fuel
    | .orElse =>
      if isMissing then expandParts inOperand operand fuel else shown (value.getD [])
    | .orAssign =>
      if isMissing then
        let text := Atom.text (← expandParts { hasTilde := true } operand fuel)
        assign name text
        shown ((← valueAtoms).getD [])
      else shown (value.getD [])
    | .orFail =>
      if isMissing then
        let text := Atom.text (← expandParts { hasTilde := true } operand fuel)
        refuseUnset name (if operand.isEmpty then
          ofString (if emptyToo then "parameter not set or null" else "parameter not set")
          else text)
      else shown (value.getD [])
    | .value | .length | .without _ _ | .malformed => do
      if isMissing && (← hasOption "nounset") then
        refuseUnset name (ofString "parameter not set")
      match use, value with
      | .length, value => do
        let length := (Atom.text (value.getD [])).length
        shown (Atom.ofBytes isQuoted (numeral length))
      | .without atFront longest, some atoms => do
        let pattern ← expandParts { hasTilde := true } operand fuel
        let pattern := Pattern.ofGlyphs false (Atom.glyphs pattern)
        let text := pattern.cut atFront longest (Atom.text atoms)
        shown (Atom.ofBytes isQuoted text)
      | _, some atoms => shown atoms
      | _, none => return []

end

def wordDepth : Nat := 10000

def text (purpose : Purpose) (word : Word) : Action Bytes :=
  return Atom.text (← expandParts printed purpose word wordDepth)

def pattern (word : Word) : Action Pattern :=
  return Pattern.ofGlyphs false
    (Atom.glyphs (← expandParts printed { hasTilde := true } word wordDepth))

def fields (word : Word) : Action (List Bytes) := do
  let atoms ← expandParts printed { splits := true, hasTilde := true } word wordDepth
  let found := Split.ofAtoms (← separators) none atoms
  if ← hasOption "noglob" then return found.map Glyph.text
  let state ← get
  return found.flatMap fun field =>
    match filesFor state.system.disk state.process.working field with
    | [] => [Glyph.text field]
    | files => files

end Action

end FragmentBuild.Shell
