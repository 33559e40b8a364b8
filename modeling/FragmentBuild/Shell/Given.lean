import FragmentBuild.Shell.Script

/-! Command lines of programs: options of one letter, long options that may be cut short, and
other words between and after them. -/
namespace FragmentBuild.Shell

structure OptionForm where
  letter : Char
  name : String
  takesArgument : Bool := false

structure Given where
  options : List (Char × Bytes) := []
  words : List Bytes := []

namespace Given

def quoted (text : Bytes) : Bytes := '\'' :: text ++ ['\'']

def add (option : Char × Bytes) (given : Given) : Given :=
  { given with options := option :: given.options }

/-- The options in a word after its first character, with what follows the last of them if it
takes an argument. -/
def ofLetters (forms : List OptionForm) (next : Option Bytes) :
    Bytes → Except Bytes (List (Char × Bytes) × Bool)
  | [] => .ok ([], false)
  | c :: rest =>
    match forms.find? (·.letter == c) with
    | none => .error (ofString "invalid option -- " ++ quoted [c])
    | some form =>
      if !form.takesArgument then do
        let (options, tookNext) ← ofLetters forms next rest
        return ((c, []) :: options, tookNext)
      else if !rest.isEmpty then .ok ([(c, rest)], false)
      else
        match next with
        | some argument => .ok ([(c, argument)], true)
        | none => .error (ofString "option requires an argument -- " ++ quoted [c])

def ofLongWord (forms : List OptionForm) (next : Option Bytes) (word : Bytes) :
    Except Bytes ((Char × Bytes) × Bool) := do
  let (name, value) := word.span (· != '=')
  let shown := "--".toList ++ name
  let meant :=
    match forms.filter fun (form : OptionForm) => form.name.toList == name with
    | [] => forms.filter fun (form : OptionForm) => name.isPrefixOf form.name.toList
    | exact => exact
  match meant with
  | [] => throw (ofString "unrecognized option " ++ quoted ("--".toList ++ word))
  | [form] =>
    let shown := "--".toList ++ form.name.toList
    if !form.takesArgument then
      if value.isEmpty then return ((form.letter, []), false)
      else throw (ofString "option " ++ quoted shown ++ ofString " doesn't allow an argument")
    else if !value.isEmpty then return ((form.letter, value.drop 1), false)
    else
      match next with
      | some argument => return ((form.letter, argument), true)
      | none => throw (ofString "option " ++ quoted shown ++ ofString " requires an argument")
  | several =>
    let names := several.flatMap fun (form : OptionForm) => ' ' :: quoted ("--".toList ++ form.name.toList)
    throw (ofString "option " ++ quoted shown ++ ofString " is ambiguous; possibilities:" ++ names)

/-- Reads words as options and others, in any order, up to two dashes. -/
def read (forms : List OptionForm) : List Bytes → Except Bytes Given
  | [] => .ok {}
  | ['-', '-'] :: rest => .ok { words := rest }
  | ('-' :: '-' :: word) :: rest => do
    let (option, tookNext) ← ofLongWord forms rest.head? word
    match tookNext, rest with
    | true, _ :: rest => return (← read forms rest).add option
    | _, rest => return (← read forms rest).add option
  | ('-' :: c :: letters) :: rest => do
    let (options, tookNext) ← ofLetters forms rest.head? (c :: letters)
    match tookNext, rest with
    | true, _ :: rest => return options.foldr add (← read forms rest)
    | _, rest => return options.foldr add (← read forms rest)
  | word :: rest => do
    let given ← read forms rest
    return { given with words := word :: given.words }

def has (given : Given) (letters : String) : Bool :=
  given.options.any fun option => letters.toList.contains option.1

end Given

end FragmentBuild.Shell
