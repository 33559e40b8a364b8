import FragmentBuild.Toml.Scalar
import FragmentBuild.Toml.Table
import FragmentBuild.Toml.TextReader

/-! Reading TOML values: keys, arrays, inline tables, strings and words. Arrays and inline
tables nest to a given depth; a reader gives the value together with what follows it. -/
namespace FragmentBuild.Toml

def skipWhite (text : List Char) : List Char := text.dropWhile isWhite

/-- Passes over white space, line ends and comments. A comment holds no control characters
and its line has an end. -/
def skipLines (comment : Bool) : List Char → Option (List Char)
  | [] => if comment then none else some []
  | '\n' :: rest => skipLines false rest
  | '\r' :: '\n' :: rest => skipLines false rest
  | c :: rest =>
    if comment then if isPlain c then skipLines true rest else none
    else if isWhite c then skipLines false rest
    else if c = '#' then skipLines true rest
    else some (c :: rest)

def readKey (text : List Char) : Option (String × List Char) :=
  match text with
  | '"' :: rest => (readBasic rest).map fun (key, rest) => (String.ofList key, rest)
  | '\'' :: rest => (readLiteral rest).map fun (key, rest) => (String.ofList key, rest)
  | _ =>
    let key := text.takeWhile isBareKeyChar
    if key.isEmpty then none else some (String.ofList key, text.dropWhile isBareKeyChar)

/-- Keys set apart by dots, with white space around each, up to a greatest number. -/
def readPath : Nat → List Char → Option (KeyPath × List Char)
  | 0, _ => none
  | most + 1, text => do
    let (key, rest) ← readKey (skipWhite text)
    match skipWhite rest with
    | '.' :: rest =>
      let (path, rest) ← readPath most rest
      return (⟨key :: path.parents, path.last⟩, rest)
    | rest => return (⟨[], key⟩, rest)

/-- How many keys a path may have, and how deep arrays and inline tables may nest. -/
def nestingLimit : Nat := 79

def afterEquals? (text : List Char) : Option (List Char) :=
  match text with
  | '=' :: rest => some (skipWhite rest)
  | _ => none

/-- The items of an array after its opening bracket or a comma. `fuel` bounds the number of
items. -/
def readItems (readItem : List Char → Option (Value × List Char)) :
    Nat → List Char → Option (List Value × List Char)
  | 0, _ => none
  | fuel + 1, text => do
    match ← skipLines false text with
    | ']' :: rest => return ([], rest)
    | text =>
      let (item, rest) ← readItem text
      match ← skipLines false rest with
      | ',' :: rest =>
        let (items, rest) ← readItems readItem fuel rest
        return (item :: items, rest)
      | ']' :: rest => return ([item], rest)
      | _ => none

def readEntries (readItem : List Char → Option (Value × List Char)) :
    Nat → List Char → Option (List (KeyPath × Value) × List Char)
  | 0, _ => none
  | fuel + 1, text => do
    let (path, rest) ← readPath nestingLimit text
    let (value, rest) ← readItem (← afterEquals? rest)
    match skipWhite rest with
    | ',' :: rest =>
      let (entries, rest) ← readEntries readItem fuel rest
      return ((path, value) :: entries, rest)
    | '}' :: rest => return ([(path, value)], rest)
    | _ => none

def readInlineTable (readItem : List Char → Option (Value × List Char)) (text : List Char) :
    Option (Value × List Char) :=
  match skipWhite text with
  | '}' :: rest => some (.table [], rest)
  | text => do
    let (entries, rest) ← readEntries readItem text.length text
    return (.table (entryValues (← putEntries [] entries)), rest)

def readPlain (text : List Char) : Option (Value × List Char) :=
  match text with
  | '"' :: _ | '\'' :: _ =>
    (readText text).map fun (text, rest) => (.string (String.ofList text), rest)
  | _ => readScalar text

def readValue : Nat → List Char → Option (Value × List Char)
  | 0, text => readPlain text
  | depth + 1, text =>
    match text with
    | '[' :: rest =>
      (readItems (readValue depth) text.length rest).map fun (items, rest) => (.array items, rest)
    | '{' :: rest => readInlineTable (readValue depth) rest
    | _ => readPlain text

end FragmentBuild.Toml
