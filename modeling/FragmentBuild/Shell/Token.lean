import FragmentBuild.Shell.Script

/-! The tokens of a shell script, and how far a script has been read. A script is read one
command at a time, and what has been read may change how the rest is read. -/
namespace FragmentBuild.Shell

inductive Token where
  | stop
  | newline
  | semicolon
  | background
  | both
  | either
  | pipe
  | openParenthesis
  | closeParenthesis
  | endOfArm
  | redirection
  | word
  | keyword (name : String)
  deriving DecidableEq

namespace Token

def keywords : List String :=
  ["!", "case", "do", "done", "elif", "else", "esac", "fi", "for", "if", "in", "then", "until",
    "while", "\x7b", "\x7d"]

def quotes (text : String) : String := "\"" ++ text ++ "\""

/-- What a token is called where it is not expected. -/
def text : Token → String
  | .stop => "end of file"
  | .newline => "newline"
  | .semicolon => quotes ";"
  | .background => quotes "&"
  | .both => quotes "&&"
  | .either => quotes "||"
  | .pipe => quotes "|"
  | .openParenthesis => quotes "("
  | .closeParenthesis => quotes ")"
  | .endOfArm => quotes ";;"
  | .redirection => "redirection"
  | .word => "word"
  | .keyword name => quotes name

def endsList : Token → Bool
  | .stop | .closeParenthesis | .endOfArm => true
  | .keyword name =>
    ["do", "done", "elif", "else", "esac", "fi", "then", "\x7d"].contains name
  | _ => false

def isWord : Token → Bool
  | .word | .keyword _ => true
  | _ => false

end Token

structure Checks where
  /-- Line ends are passed over. -/
  lineEnds : Bool := false
  keywords : Bool := false
  aliases : Bool := false
  /-- The word ends a document, and nothing is expanded in it. -/
  closer : Bool := false

inductive Direction where
  | file (access : Access)
  | duplicate
  | document (dropsTabs : Bool)

/-- A document whose text is still to come. -/
structure Expected where
  number : Nat
  closer : Bytes
  dropsTabs : Bool
  expands : Bool

/-- The text of an alias that is being read in its place: how much is left when it ends, and
whether the word after it may be an alias too. -/
structure OpenAlias where
  name : Bytes
  left : Nat
  goesOn : Bool

structure Reader where
  rest : Bytes
  line : Nat := 1
  checks : Checks := {}
  /-- The token read last, which is read again if it has been put back. -/
  token : Token := .newline
  isPutBack : Bool := false
  /-- The word read last, and whether something in it is quoted. -/
  word : Word := []
  isQuoted : Bool := false
  /-- The redirection read last. -/
  descriptor : Nat := 0
  direction : Direction := .duplicate
  expected : List Expected := []
  documents : List (Nat × Document) := []
  nextDocument : Nat := 0
  aliases : List (Bytes × Bytes) := []
  openAliases : List OpenAlias := []

structure Fault where
  line : Nat
  message : String

abbrev Reading := StateT Reader (Except Fault)

namespace Reader

def refuse (message : String) : Reading α := do throw ⟨(← get).line, message⟩

def refuseToken (wanted : Option Token) : Reading α := do
  let found := (← get).token.text ++ " unexpected"
  refuse (match wanted with
    | some token => found ++ " (expecting " ++ token.text ++ ")"
    | none => found)

def take : Reading (Option Char) := do
  match (← get).rest with
  | [] => return none
  | c :: rest =>
    modify ({ · with rest })
    return some c

/-- A text and a line number past the joints of lines at its front. -/
def pastJoints : Bytes → Nat → Bytes × Nat
  | '\\' :: '\n' :: rest, line => pastJoints rest (line + 1)
  | rest, line => (rest, line)

def takeJoined : Reading (Option Char) := do
  modify fun reader =>
    let (rest, line) := pastJoints reader.rest reader.line
    { reader with rest, line }
  take

def putBackChar (c : Option Char) : Reading Unit :=
  modify fun reader => { reader with rest := c.toList ++ reader.rest }

def countLine : Reading Unit := modify fun reader => { reader with line := reader.line + 1 }

def putBack : Reading Unit := modify ({ · with isPutBack := true })

def check (checks : Checks) : Reading Unit := modify ({ · with checks })

end Reader

end FragmentBuild.Shell
