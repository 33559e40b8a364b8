import FragmentBuild.Shell.Condition
import FragmentBuild.Shell.Options
import FragmentBuild.Shell.Quoting

/-! Commands that set and show variables, arguments and options. -/
namespace FragmentBuild.Shell.Declare

open Action

inductive Mark where
  | exported
  | readOnly
  deriving DecidableEq

namespace Mark

def command : Mark → String
  | .exported => "export"
  | .readOnly => "readonly"

def isOn (mark : Mark) (binding : Variable) : Bool :=
  match mark with
  | .exported => binding.isExported
  | .readOnly => binding.isReadOnly

def put (mark : Mark) (binding : Variable) : Variable :=
  match mark with
  | .exported => { binding with isExported := true }
  | .readOnly => { binding with isReadOnly := true }

end Mark

/-- Prints variables in the order of their names, in a form that can be read again. -/
def showBindings (front : Bytes) (isShown : Variable → Bool) : Action Unit := do
  let bindings := (← process).bindings.filter fun entry => isShown entry.2
  (bindings.mergeSort fun a b => inOrder a.1 b.1).forM fun (name, binding) => do
    let value :=
      match binding.value with
      | some value => '=' :: inSingleQuotes value
      | none => []
    printLine (front ++ name ++ value)

def splitAssignment (word : Bytes) : Bytes × Option Bytes :=
  let (name, rest) := word.span (· != '=')
  (name, if rest.isEmpty then none else some (rest.drop 1))

def markOne (mark : Mark) (word : Bytes) : Action Unit := do
  let (name, value) := splitAssignment word
  let before ← binding? name
  match value, before with
  | none, some binding =>
    change fun process =>
      { process with bindings := setEntry name (mark.put binding) process.bindings }
  | value, _ => do
    checkName name
    setBinding name fun before =>
      some (mark.put { value, isExported := before.any (·.isExported) })

def markAll (mark : Mark) (arguments : List Bytes) : Action Nat := do
  let chosen ← options "p" arguments
  if chosen.has 'p' || chosen.words.isEmpty then
    showBindings (ofString mark.command ++ [' ']) mark.isOn
  else chosen.words.forM (markOne mark)
  return 0

def makeLocals (arguments : List Bytes) : Action Nat := do
  if (← process).frames.isEmpty then refuseText "not in a function"
  arguments.forM fun word => do
    let (name, value) := splitAssignment word
    makeLocal name value false
  return 0

def unsetAll (arguments : List Bytes) : Action Nat := do
  let chosen ← options "vf" arguments
  chosen.words.forM fun name => do
    if (chosen.options.getLast?.map (·.1)) = some 'f' then
      change fun process =>
        { process with functions := process.functions.filter (·.1 != name) }
    else unset name
  return 0

def setArguments (arguments : List Bytes) : Action Unit :=
  change ({ · with arguments, optionIndex := 1, optionPlace := none })

def shift (arguments : List Bytes) : Action Nat := do
  let count ←
    match arguments with
    | [] => pure 1
    | word :: _ => natural word
  let before := (← process).arguments
  if before.length < count then refuseText "can't shift that many"
  setArguments (before.drop count)
  return 0

def optionNames : List (String × Option Char) :=
  [("errexit", some 'e'), ("noglob", some 'f'), ("ignoreeof", some 'I'), ("interactive", some 'i'),
    ("monitor", some 'm'), ("noexec", some 'n'), ("stdin", some 's'), ("xtrace", some 'x'),
    ("verbose", some 'v'), ("vi", some 'V'), ("emacs", some 'E'), ("noclobber", some 'C'),
    ("allexport", some 'a'), ("notify", some 'b'), ("nounset", some 'u'),
    ("privileged", some 'p'), ("nolog", none), ("debug", none)]

def setOption (isOn : Bool) (name : String) : Action Unit :=
  change fun process =>
    let others := process.options.filter (· != name)
    { process with options := if isOn then name :: others else others }

def setLetter (isOn : Bool) (letter : Char) : Action Unit := do
  match optionNames.find? (·.2 == some letter) with
  | some (name, _) => setOption isOn name
  | none => refuse (ofString "Illegal option -" ++ [letter])

def setNamed (isOn : Bool) (name : Option Bytes) : Action Unit := do
  match name with
  | some name =>
    match optionNames.find? (·.1.toList == name) with
    | some (name, _) => setOption isOn name
    | none => refuse (ofString "Illegal option -o " ++ name)
  | none => do
    if isOn then printLine (ofString "Current option settings")
    optionNames.forM fun (name, _) => do
      let holds ← hasOption name
      printLine (ofString (
        if isOn then name ++ "".pushn ' ' (16 - name.length) ++ if holds then "on" else "off"
        else "set " ++ (if holds then "-o " else "+o ") ++ name))

/-- Carries out the options in a word after its sign, and says whether the next word is the name
of one of them. -/
def setLetters (isOn : Bool) (next : Option Bytes) : Bytes → Action Bool
  | [] => return false
  | 'o' :: rest => do
    setNamed isOn next
    let _ ← setLetters isOn next rest
    return true
  | c :: rest => do
    setLetter isOn c
    setLetters isOn next rest

/-- Carries out options, and gives the words after them and whether two dashes stood before. -/
def setEach : List Bytes → Action (List Bytes × Bool)
  | [] => return ([], false)
  | ['-'] :: rest => do
    setOption false "xtrace"
    setOption false "verbose"
    return (rest, false)
  | ['-', '-'] :: rest => return (rest, true)
  | (sign :: letters) :: rest => do
    if sign ≠ '-' ∧ sign ≠ '+' then return ((sign :: letters) :: rest, false)
    let tookNext ← setLetters (sign == '-') rest.head? letters
    match tookNext, rest with
    | true, _ :: rest => setEach rest
    | _, rest => setEach rest
  | words => return (words, false)

def set (arguments : List Bytes) : Action Nat := do
  if arguments.isEmpty then showBindings [] (·.value.isSome)
  else
    let (words, hasDashes) ← setEach arguments
    if hasDashes || !words.isEmpty then setArguments words
  return 0

/-- A character that has been read, and whether a backslash stood before it. -/
abbrev Input := Char × Bool

/-- Reads a line, and says whether it was ended. A backslash protects the character after it, and
joins lines, unless it has no meaning. What has been read before is given, last first. -/
def readLine (isRaw : Bool) : Nat → Bool → List Input → Action (List Input × Bool)
  | 0, _, done => return (done.reverse, false)
  | fuel + 1, isProtected, done => do
    let state ← get
    let next : Except SystemError (Option Char × System) :=
      match state.process.descriptors.lookup 0 with
      | none => .error .badDescriptor
      | some file => state.system.readByte file
    match next with
    | .error _ | .ok (none, _) => return (done.reverse, false)
    | .ok (some c, system) => do
      modify ({ · with system })
      if c = '\x00' then readLine isRaw fuel isProtected done
      else if isProtected then
        readLine isRaw fuel false (if c = '\n' then done else (c, true) :: done)
      else if c = '\\' && !isRaw then readLine isRaw fuel true done
      else if c = '\n' then return (done.reverse, true)
      else readLine isRaw fuel false ((c, false) :: done)

def lineLimit : Nat := 10000000

def fieldsOfLine (separators : Bytes) (count : Nat) (line : List Input) : List Bytes :=
  let rows := line.map fun (c, isProtected) => (!isProtected, [Atom.glyph (.char c isProtected)])
  (Split.ofAtoms separators (some count) (inStretches rows)).map Glyph.text

def read (arguments : List Bytes) : Action Nat := do
  let chosen ← options "p:r" arguments
  if chosen.words.isEmpty then refuseText "arg count"
  let (line, ended) ← readLine (chosen.has 'r') lineLimit false []
  let fields := fieldsOfLine (← separators) chosen.words.length line
  (chosen.words.zipIdx).forM fun (name, index) => assign name (fields.getD index [])
  return if ended then 0 else 1

def optionFor? (letter : Char) (allowed : Bytes) : Option Bool :=
  Chosen.takesArgument? letter (if allowed.head? = some ':' then allowed.drop 1 else allowed)

/-- What one step through options finds: the letter, the argument, a complaint, and where the next
step begins. -/
structure OptionStep where
  letter : Char
  argument : Option Bytes
  complaint : Option String := none
  index : Nat
  place : Option Nat := none
  isDone : Bool := false

def optionStep (allowed : Bytes) (words : List Bytes) (index : Nat) (place : Option Nat)
    (before : Option Bytes) : OptionStep :=
  let isQuiet := allowed.head? == some ':'
  let goOn := fun (index : Nat) (place : Nat) (text : Bytes) =>
    match text with
    | [] => { letter := '?', argument := before, index, isDone := true : OptionStep }
    | letter :: rest =>
      let after := if rest.isEmpty then none else some (place + 1)
      match optionFor? letter allowed with
      | none =>
        { letter := '?', index, place := after
          argument := if isQuiet then some [letter] else none
          complaint := if isQuiet then none else some ("Illegal option -" ++ letter.toString) }
      | some false => { letter, argument := some [], index, place := after }
      | some true =>
        match rest, words[index - 1]? with
        | [], none =>
          { letter := if isQuiet then ':' else '?', index
            argument := if isQuiet then some [letter] else none
            complaint :=
              if isQuiet then none else some ("No arg for -" ++ letter.toString ++ " option") }
        | [], some argument => { letter, argument := some argument, index := index + 1 }
        | rest, _ => { letter, argument := some rest, index }
  let inWord : Option (Nat × Bytes) := do
    let place ← place
    if index ≤ 1 then none
    let rest := (← words[index - 2]?).drop place
    if rest.isEmpty then none else some (place, rest)
  let stop := fun (index : Nat) =>
    { letter := '?', argument := before, index, isDone := true : OptionStep }
  match inWord, words[index - 1]? with
  | some (place, rest), _ => goOn index place rest
  | none, some ['-', '-'] => stop (index + 1)
  | none, some ('-' :: c :: rest) => goOn (index + 1) 1 (c :: rest)
  | none, _ => stop index

def getOptions (arguments : List Bytes) : Action Nat := do
  match (← options "" arguments).words with
  | allowed :: name :: words => do
    let process ← process
    let words := if words.isEmpty then process.arguments else words
    let isOver := words.length + 1 < process.optionIndex
    let index := if isOver then 1 else process.optionIndex
    let place := if isOver then none else process.optionPlace
    let step := optionStep allowed words index place (← value? "OPTARG".toList)
    if let some text := step.complaint then writeError (ofString text ++ ['\n'])
    match step.argument with
    | some argument => setVariable "OPTARG".toList argument false
    | none => unset "OPTARG".toList
    setVariable "OPTIND".toList (numeral step.index) false
    change ({ · with optionIndex := 1, optionPlace := none })
    assign name [step.letter]
    change ({ · with optionIndex := step.index, optionPlace := step.place })
    return if step.isDone then 1 else 0
  | _ => refuseText "Usage: getopts optstring var [arg...]"

end FragmentBuild.Shell.Declare
