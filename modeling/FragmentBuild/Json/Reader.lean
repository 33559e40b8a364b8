import FragmentBuild.Json.Value

/-! Reading JSON. Numbers are checked for their form only, and strings that end up unused may
hold halves of surrogate pairs. -/
namespace FragmentBuild.Json

def isBlankChar (c : Char) : Bool := c == ' ' || c == '\n' || c == '\t' || c == '\r'

def skipBlank (text : List Char) : List Char := text.dropWhile isBlankChar

def unit? (a b c d : Char) : Option Nat :=
  if [a, b, c, d].all (isDigit 16) then some (numberOf 16 [a, b, c, d]) else none

def isHighHalf (unit : Nat) : Bool := 0xd800 ≤ unit && unit ≤ 0xdbff

def isLowHalf (unit : Nat) : Bool := 0xdc00 ≤ unit && unit ≤ 0xdfff

def pairChar (high low : Nat) : Char :=
  Char.ofNat (0x10000 + (high - 0xd800) * 0x400 + (low - 0xdc00))

def letterEscape? : Char → Option Char
  | '"' => some '"'
  | '\\' => some '\\'
  | '/' => some '/'
  | 'b' => some '\x08'
  | 'f' => some '\x0c'
  | 'n' => some '\n'
  | 'r' => some '\r'
  | 't' => some '\t'
  | _ => none

/-- The characters of a string, or `none` in the first place if it holds half of a surrogate
pair. -/
abbrev StringRead := Option (Option (List Char) × List Char)

def withFirst (c : Option Char) : StringRead → StringRead
  | none => none
  | some (text, rest) => some (do return (← c) :: (← text), rest)

def readString : List Char → StringRead
  | [] => none
  | '"' :: rest => some (some [], rest)
  | '\\' :: 'u' :: a :: b :: c :: d :: '\\' :: 'u' :: e :: f :: g :: h :: rest =>
    match unit? a b c d, unit? e f g h with
    | some high, some low =>
      if isHighHalf high && isLowHalf low then withFirst (some (pairChar high low)) (readString rest)
      else
        withFirst (if isHighHalf high || isLowHalf high then none else some (Char.ofNat high))
          (readString ('\\' :: 'u' :: e :: f :: g :: h :: rest))
    | _, _ => none
  | '\\' :: 'u' :: a :: b :: c :: d :: rest =>
    match unit? a b c d with
    | some unit =>
      withFirst (if isHighHalf unit || isLowHalf unit then none else some (Char.ofNat unit))
        (readString rest)
    | none => none
  | '\\' :: c :: rest =>
    match letterEscape? c with
    | some c => withFirst (some c) (readString rest)
    | none => none
  | c :: rest => if 0x20 ≤ c.toNat then withFirst (some c) (readString rest) else none

def afterDigits? (text : List Char) : Option (List Char) :=
  match text.span (isDigit 10) with
  | ([], _) => none
  | (_, rest) => some rest

/-- What follows the whole part of a number: a zero alone, or digits without a zero in
front. -/
def afterWhole? : List Char → Option (List Char)
  | '0' :: rest => some rest
  | rest => afterDigits? rest

def afterFraction? : List Char → Option (List Char)
  | '.' :: rest => afterDigits? rest
  | rest => some rest

def afterExponent? : List Char → Option (List Char)
  | mark :: rest =>
    if mark = 'e' ∨ mark = 'E' then
      match rest with
      | '+' :: rest | '-' :: rest => afterDigits? rest
      | rest => afterDigits? rest
    else some (mark :: rest)
  | [] => some []

def isNumber (word : List Char) : Bool :=
  let unsigned :=
    match word with
    | '-' :: rest => rest
    | rest => rest
  (do afterExponent? (← afterFraction? (← afterWhole? unsigned))) == some []

def isWordChar (c : Char) : Bool := c.isAlphanum || c == '+' || c == '-' || c == '.'

def readWord (text : List Char) : Option (Value × List Char) :=
  let word := text.takeWhile isWordChar
  let rest := text.dropWhile isWordChar
  if word = ['n', 'u', 'l', 'l'] then some (.null, rest)
  else if word = ['t', 'r', 'u', 'e'] then some (.boolean true, rest)
  else if word = ['f', 'a', 'l', 's', 'e'] then some (.boolean false, rest)
  else if isNumber word then some (.number (String.ofList word), rest)
  else none

/-- Items after a bracket or a comma. `fuel` bounds their number. -/
def readItems (readItem : List Char → Option (Value × List Char)) :
    Nat → List Char → Option (List Value × List Char)
  | 0, _ => none
  | fuel + 1, text => do
    let (item, rest) ← readItem text
    match skipBlank rest with
    | ',' :: rest =>
      let (items, rest) ← readItems readItem fuel rest
      return (item :: items, rest)
    | ']' :: rest => return ([item], rest)
    | _ => none

/-- Entries after a brace or a comma, or `none` in the first place if a key is no text. -/
def readEntries (readItem : List Char → Option (Value × List Char)) :
    Nat → List Char → Option (Option (List (String × Value)) × List Char)
  | 0, _ => none
  | fuel + 1, text =>
    match skipBlank text with
    | '"' :: text => do
      let (key, rest) ← readString text
      match skipBlank rest with
      | ':' :: rest =>
        let (value, rest) ← readItem rest
        let entry := key.map fun key => (String.ofList key, value)
        match skipBlank rest with
        | ',' :: rest =>
          let (entries, rest) ← readEntries readItem fuel rest
          return (do return (← entry) :: (← entries), rest)
        | '}' :: rest => return (entry.map ([·]), rest)
        | _ => none
      | _ => none
    | _ => none

def readValue : Nat → List Char → Option (Value × List Char)
  | 0, _ => none
  | depth + 1, text =>
    match skipBlank text with
    | '"' :: rest => do
      let (text, rest) ← readString rest
      return (text.elim .unpaired fun text => .string (String.ofList text), rest)
    | '[' :: rest =>
      match skipBlank rest with
      | ']' :: rest => some (.array [], rest)
      | rest => do
        let (items, rest) ← readItems (readValue depth) rest.length rest
        return (.array items, rest)
    | '{' :: rest =>
      match skipBlank rest with
      | '}' :: rest => some (.object [], rest)
      | rest => do
        let (entries, rest) ← readEntries (readValue depth) rest.length rest
        return (entries.elim .unpaired .object, rest)
    | rest => readWord rest

def parse? (text : String) : Option Value := do
  let (value, rest) ← readValue (text.length + 1) text.toList
  if skipBlank rest = [] then return value else none

end FragmentBuild.Json
