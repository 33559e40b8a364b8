import FragmentBuild.Text.Utf8

/-! What a shell script says. Words are kept in parts, since what a part stands for is only
known when it is expanded. -/
namespace FragmentBuild.Shell

/-- A row of bytes, each as the character with its number. -/
abbrev Bytes := List Char

def ofByteArray (bytes : ByteArray) : Bytes :=
  bytes.toList.map fun byte => Char.ofNat byte.toNat

def toByteArray (bytes : Bytes) : ByteArray :=
  ⟨(bytes.map fun c => UInt8.ofNat c.toNat).toArray⟩

def ofString (text : String) : Bytes := ofByteArray text.toUTF8

def toText (bytes : Bytes) : String := textOf (toByteArray bytes)

def inOrder (first second : Bytes) : Bool :=
  decide (String.ofList first ≤ String.ofList second)

def numeral (number : Int) : Bytes := (toString number).toList

def isNameStart (c : Char) : Bool := c.isAlpha || c == '_'

def isNameChar (c : Char) : Bool := c.isAlphanum || c == '_'

def isName (text : Bytes) : Bool :=
  match text with
  | [] => false
  | c :: rest => isNameStart c && rest.all isNameChar

inductive Use where
  | value
  | length
  /-- The operand if there is no value. -/
  | orElse
  | orAssign
  | orFail
  /-- The operand if there is a value. -/
  | instead
  /-- The value without what a pattern matches at one of its ends. -/
  | without (atFront longest : Bool)
  | malformed
  deriving DecidableEq

inductive Access where
  | read
  | write
  /-- Writes even where files are protected. -/
  | overwrite
  | append
  | update
  deriving DecidableEq

mutual

inductive Part where
  /-- A character that means what it can mean. -/
  | bare (c : Char)
  /-- A character that quoting protects. -/
  | quoted (c : Char)
  /-- A quote that opens or closes. -/
  | mark
  /-- `emptyToo` says that an empty value is as good as none. -/
  | parameter (name : Bytes) (use : Use) (emptyToo : Bool) (operand : List Part)
  /-- What a script prints. -/
  | command (script : Option Command)
  | arithmetic (expression : List Part)

inductive Redirection where
  | file (descriptor : Nat) (access : Access) (name : List Part)
  /-- To where another descriptor leads, or to nowhere. -/
  | duplicate (descriptor : Nat) (source : List Part)
  /-- From a text in the script, which stands apart under a number. -/
  | document (descriptor number : Nat)

inductive Command where
  | simple (line : Nat) (assignments words : List (List Part)) (redirections : List Redirection)
  | redirected (line : Nat) (body : Command) (redirections : List Redirection)
  | subshell (line : Nat) (body : Command) (redirections : List Redirection)
  | background (line : Nat) (body : Command) (redirections : List Redirection)
  | pipe (stages : List Command) (inBackground : Bool)
  | sequence (first second : Command)
  | both (first second : Command)
  | either (first second : Command)
  | negated (command : Command)
  | branch (condition yes : Command) (no : Option Command)
  /-- Goes on for as long as the condition succeeds, or fails, as `expected` says. -/
  | loop (expected : Bool) (condition body : Command)
  | each (line : Nat) (name : Bytes) (words : List (List Part)) (body : Command)
  | choice (line : Nat) (subject : List Part) (arms : List (List (List Part) × Option Command))
  | define (line : Nat) (name : Bytes) (body : Command)

end

abbrev Word := List Part

/-- A text that is given in a script: whether parameters in it are replaced, and what it says. -/
structure Document where
  expands : Bool
  text : Word

def Word.plain? : Word → Option Bytes
  | [] => some []
  | .bare c :: rest => (Word.plain? rest).map (c :: ·)
  | _ => none

/-- Whether a word begins with a name and an equals sign, neither of them quoted. -/
def Word.isAssignment (word : Word) : Bool :=
  let rec after : Word → Bool
    | .bare c :: rest => c == '=' || isNameChar c && after rest
    | _ => false
  match word with
  | .bare c :: rest => isNameStart c && after rest
  | _ => false

def Word.allArguments : Word := [.mark, .parameter ['@'] .value false [], .mark]

end FragmentBuild.Shell
