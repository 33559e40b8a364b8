import FragmentBuild.Number.Digits

/-! The four written forms of a TOML string, and which of them a printer picks. The picked
form is the plainest one that keeps the text readable: no escapes where another form does
without, and several lines where the text has several. -/
namespace FragmentBuild.Toml

inductive TextForm where
  | basic
  | literal
  | basicLines
  | literalLines
  deriving DecidableEq, Repr

def isControl (c : Char) : Bool :=
  (c.toNat ≤ 0x1f && c != '\t' && c != '\n') || c == '\x7f'

/-- The longest row of `mark`, given the row that reaches up to here. -/
def longestRowFrom (mark : Char) (row : Nat) : List Char → Nat
  | [] => row
  | c :: rest =>
    if c = mark then longestRowFrom mark (row + 1) rest
    else max row (longestRowFrom mark 0 rest)

def longestRow (mark : Char) (text : List Char) : Nat := longestRowFrom mark 0 text

def TextForm.choose (text : List Char) : TextForm :=
  let control := text.any isControl
  let lines := text.contains '\n'
  let backslash := text.contains '\\'
  let quotes := longestRow '"' text
  let apostrophes := longestRow '\'' text
  if !control && !backslash && !lines && quotes == 0 then .basic
  else if !control && !lines && apostrophes == 0 then .literal
  else if !control && !backslash && quotes ≤ 2 then .basicLines
  else if !control && apostrophes ≤ 2 then .literalLines
  else if lines then .basicLines
  else .basic

/-- The form a key of an inline table is written in, if it needs quotes: keys stay on one
line. -/
def TextForm.chooseForKey (key : List Char) : TextForm :=
  let control := key.any fun c => isControl c || c == '\n'
  if !control && !key.contains '\\' && !key.contains '"' then .basic
  else if !control && !key.contains '\'' then .literal
  else .basic

def escape? (c : Char) : Option (List Char) :=
  match c with
  | '\x08' => some ['\\', 'b']
  | '\t' => some ['\\', 't']
  | '\x0c' => some ['\\', 'f']
  | '\r' => some ['\\', 'r']
  | '\\' => some ['\\', '\\']
  | c =>
    if isControl c then some (['\\', 'u'] ++ paddedDigits 16 4 c.toNat) else none

def writeBasic : List Char → List Char
  | [] => []
  | c :: rest =>
    if c = '"' then '\\' :: '"' :: writeBasic rest
    else if c = '\n' then '\\' :: 'n' :: writeBasic rest
    else
      match escape? c with
      | some written => written ++ writeBasic rest
      | none => c :: writeBasic rest

/-- Within several lines only each third quote of a row is escaped. `row` counts the raw
quotes in front. -/
def writeBasicLines (row : Nat) : List Char → List Char
  | [] => []
  | c :: rest =>
    if c = '"' then
      if row = 2 then '\\' :: '"' :: writeBasicLines 0 rest
      else '"' :: writeBasicLines (row + 1) rest
    else
      match escape? c with
      | some written => written ++ writeBasicLines 0 rest
      | none => c :: writeBasicLines 0 rest

/-- A form of several lines starts with a line of its own exactly if the text has several:
a newline after the opening mark is not part of the text. -/
def openingLine (text : List Char) : List Char := if text.contains '\n' then ['\n'] else []

def TextForm.write (form : TextForm) (text : List Char) : List Char :=
  match form with
  | .basic => '"' :: writeBasic text ++ ['"']
  | .literal => '\'' :: text ++ ['\'']
  | .basicLines => ['"', '"', '"'] ++ openingLine text ++ writeBasicLines 0 text ++ ['"', '"', '"']
  | .literalLines => ['\'', '\'', '\''] ++ openingLine text ++ text ++ ['\'', '\'', '\'']

def writeText (text : List Char) : List Char := (TextForm.choose text).write text

end FragmentBuild.Toml
