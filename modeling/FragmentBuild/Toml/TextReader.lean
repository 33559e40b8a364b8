import FragmentBuild.Number.Digits
import FragmentBuild.Text.Scan

/-! Reading the four written forms of a TOML string. A reader starts after the opening mark
and gives the text together with what follows the closing mark. -/
namespace FragmentBuild.Toml

/-- The tab, and every character from the space on except DEL. -/
def isPlain (c : Char) : Bool := c == '\t' || (0x20 ≤ c.toNat && c.toNat != 0x7f)

def isWhite (c : Char) : Bool := c == ' ' || c == '\t'

def afterNewline? : List Char → Option (List Char)
  | '\n' :: rest => some rest
  | '\r' :: '\n' :: rest => some rest
  | _ => none

def hexChar? (code : List Char) : Option Char :=
  if code.all (isDigit 16) then
    let number := numberOf 16 code
    if h : number.isValidChar then some (Char.ofNatAux number h) else none
  else none

def letterEscape? : Char → Option Char
  | 'b' => some '\x08'
  | 't' => some '\t'
  | 'n' => some '\n'
  | 'f' => some '\x0c'
  | 'r' => some '\r'
  | '"' => some '"'
  | '\\' => some '\\'
  | _ => none

def withFirst (first : Option Char) (read : Option (List Char × List Char)) :
    Option (List Char × List Char) := do
  let c ← first
  let (text, rest) ← read
  return (c :: text, rest)

def readBasic : List Char → Option (List Char × List Char)
  | [] => none
  | '"' :: rest => some ([], rest)
  | '\\' :: 'u' :: a :: b :: c :: d :: rest => withFirst (hexChar? [a, b, c, d]) (readBasic rest)
  | '\\' :: 'U' :: a :: b :: c :: d :: e :: f :: g :: h :: rest =>
    withFirst (hexChar? [a, b, c, d, e, f, g, h]) (readBasic rest)
  | '\\' :: c :: rest => withFirst (letterEscape? c) (readBasic rest)
  | c :: rest => if isPlain c then withFirst (some c) (readBasic rest) else none

theorem readBasic_plain (c : Char) (rest : List Char) (quote : c ≠ '"') (slash : c ≠ '\\')
    (plain : isPlain c = true) : readBasic (c :: rest) = withFirst (some c) (readBasic rest) := by
  simp [readBasic, slash, plain]

def readLiteral : List Char → Option (List Char × List Char)
  | [] => none
  | '\'' :: rest => some ([], rest)
  | c :: rest => if isPlain c then withFirst (some c) (readLiteral rest) else none

/-- Whether a backslash in front of `rest` ends a line: white space and the line's end
follow. -/
def endsLine (rest : List Char) : Bool := (afterNewline? (rest.dropWhile isWhite)).isSome

/-- Reads a basic string of several lines. `trim` holds after a backslash that ended a
line: white space and further line ends are passed over. Up to two quotes may stand right
before the closing mark. -/
def readBasicLines (trim : Bool) : List Char → Option (List Char × List Char)
  | [] => none
  | '"' :: '"' :: '"' :: '"' :: '"' :: rest => some (['"', '"'], rest)
  | '"' :: '"' :: '"' :: '"' :: rest => some (['"'], rest)
  | '"' :: '"' :: '"' :: rest => some ([], rest)
  | '\r' :: '\n' :: rest =>
    if trim then readBasicLines true rest else withFirst (some '\n') (readBasicLines false rest)
  | '\\' :: 'u' :: a :: b :: c :: d :: rest =>
    withFirst (hexChar? [a, b, c, d]) (readBasicLines false rest)
  | '\\' :: 'U' :: a :: b :: c :: d :: e :: f :: g :: h :: rest =>
    withFirst (hexChar? [a, b, c, d, e, f, g, h]) (readBasicLines false rest)
  | '\\' :: c :: rest =>
    if endsLine (c :: rest) then
      readBasicLines true (c :: rest)
    else withFirst (letterEscape? c) (readBasicLines false rest)
  | c :: rest =>
    if trim && (isWhite c || c == '\n') then readBasicLines true rest
    else if isPlain c || c == '\n' then withFirst (some c) (readBasicLines false rest)
    else none

theorem readBasicLines_plain (c : Char) (rest : List Char) (quote : c ≠ '"') (slash : c ≠ '\\')
    (carriage : c ≠ '\r') (plain : isPlain c = true ∨ c = '\n') :
    readBasicLines false (c :: rest) = withFirst (some c) (readBasicLines false rest) := by
  simp [readBasicLines, quote, slash, carriage, plain]

def readLiteralLines : List Char → Option (List Char × List Char)
  | [] => none
  | '\'' :: '\'' :: '\'' :: '\'' :: '\'' :: rest => some (['\'', '\''], rest)
  | '\'' :: '\'' :: '\'' :: '\'' :: rest => some (['\''], rest)
  | '\'' :: '\'' :: '\'' :: rest => some ([], rest)
  | '\r' :: '\n' :: rest => withFirst (some '\n') (readLiteralLines rest)
  | c :: rest =>
    if isPlain c || c == '\n' then withFirst (some c) (readLiteralLines rest) else none

/-- A form of several lines does not hold the line end right after its opening mark. -/
def afterOpening (rest : List Char) : List Char := (afterNewline? rest).getD rest

def readText : List Char → Option (List Char × List Char)
  | '"' :: '"' :: '"' :: rest => readBasicLines false (afterOpening rest)
  | '"' :: rest => readBasic rest
  | '\'' :: '\'' :: '\'' :: rest => readLiteralLines (afterOpening rest)
  | '\'' :: rest => readLiteral rest
  | _ => none

end FragmentBuild.Toml
