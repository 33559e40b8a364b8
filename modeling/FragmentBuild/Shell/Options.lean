import FragmentBuild.Shell.Process

/-! Options of commands that the shell carries out itself. -/
namespace FragmentBuild.Shell

structure Chosen where
  options : List (Char × Bytes) := []
  words : List Bytes

namespace Chosen

def has (chosen : Chosen) (letter : Char) : Bool := chosen.options.any (·.1 == letter)

/-- Whether a letter is an option, and whether it takes an argument then. -/
def takesArgument? (letter : Char) : List Char → Option Bool
  | [] => none
  | c :: ':' :: rest => if c = letter then some true else takesArgument? letter rest
  | c :: rest => if c = letter then some false else takesArgument? letter rest

def lettersOf (allowed : List Char) (next : Option Bytes) :
    Bytes → Except Bytes (List (Char × Bytes) × Bool)
  | [] => .ok ([], false)
  | c :: rest =>
    match takesArgument? c allowed with
    | none => .error (ofString "Illegal option -" ++ [c])
    | some false => do
      let (options, tookNext) ← lettersOf allowed next rest
      return ((c, []) :: options, tookNext)
    | some true =>
      if !rest.isEmpty then .ok ([(c, rest)], false)
      else
        match next with
        | some argument => .ok ([(c, argument)], true)
        | none => .error (ofString "No arg for -" ++ c :: ofString " option")

def read (allowed : List Char) : List Bytes → Except Bytes Chosen
  | ['-', '-'] :: rest => .ok { words := rest }
  | ('-' :: c :: letters) :: rest => do
    let (options, tookNext) ← lettersOf allowed rest.head? (c :: letters)
    match tookNext, rest with
    | true, _ :: rest =>
      let chosen ← read allowed rest
      return { chosen with options := options ++ chosen.options }
    | _, rest =>
      let chosen ← read allowed rest
      return { chosen with options := options ++ chosen.options }
  | words => .ok { words }

end Chosen

namespace Action

def options (allowed : String) (arguments : List Bytes) : Action Chosen := do
  match Chosen.read allowed.toList arguments with
  | .ok chosen => return chosen
  | .error text => refuse text

end Action

end FragmentBuild.Shell
