import FragmentBuild.Toml.Reader

/-! TOML documents: lines that open tables or add entries to the table opened last. -/
namespace FragmentBuild.Toml

inductive Line where
  | entry (path : KeyPath) (value : Value)
  | table (path : KeyPath)
  /-- A new element of an array of tables. -/
  | element (path : KeyPath)
  deriving Repr

/-- What follows the rest of a line that holds at most white space and a comment. -/
def afterLine? (text : List Char) : Option (List Char) :=
  let rest :=
    match skipWhite text with
    | '#' :: rest => rest.dropWhile isPlain
    | rest => rest
  match rest with
  | [] => some []
  | rest => afterNewline? rest

def readLine (text : List Char) : Option (Line × List Char) :=
  match text with
  | '[' :: '[' :: rest => do
    let (path, rest) ← readPath nestingLimit rest
    return (.element path, ← afterLine? (← restAfter? [']', ']'] rest))
  | '[' :: rest => do
    let (path, rest) ← readPath nestingLimit rest
    return (.table path, ← afterLine? (← restAfter? [']'] rest))
  | _ => do
    let (path, rest) ← readPath nestingLimit text
    let (value, rest) ← readValue nestingLimit (← afterEquals? rest)
    return (.entry path value, ← afterLine? rest)

/-- All lines of a text. `fuel` bounds their number, empty ones included. -/
def readLines : Nat → List Char → Option (List Line)
  | 0, _ => none
  | fuel + 1, text =>
    match skipWhite text with
    | [] => some []
    | c :: rest =>
      if c = '#' ∨ c = '\n' ∨ c = '\r' then do readLines fuel (← afterLine? (c :: rest))
      else do
        let (line, rest) ← readLine (c :: rest)
        return line :: (← readLines fuel rest)

structure Part where
  element : Bool
  path : KeyPath
  entries : List (KeyPath × Value)

def partsOf (lines : List Line) : List (KeyPath × Value) × List Part :=
  lines.foldr (fun line (entries, parts) =>
    match line with
    | .entry path value => ((path, value) :: entries, parts)
    | .table path => ([], ⟨false, path, entries⟩ :: parts)
    | .element path => ([], ⟨true, path, entries⟩ :: parts)) ([], [])

/-- Adds a part to the document. A table may have been implied before, by headers below
it, and keeps what is below it; an array of tables takes any number of elements. -/
def putPart (document : List (String × Node)) (part : Part) : Option (List (String × Node)) :=
  let key := part.path.last
  alterAt .implied (fun _ parent =>
    match part.element, parent.lookup key with
    | false, none => do
      return setEntry key (.table .header (← putEntries [] part.entries)) parent
    | false, some (.table .implied below) => do
      return setEntry key (.table .header (← putEntries below part.entries)) parent
    | true, none => do return setEntry key (.tables [← putEntries [] part.entries]) parent
    | true, some (.tables items) => do
      return setEntry key (.tables (items ++ [← putEntries [] part.entries])) parent
    | _, _ => none) part.path.parents .header document

def documentOf (lines : List Line) : Option (List (String × Value)) := do
  let (entries, parts) := partsOf lines
  return entryValues (← parts.foldlM putPart (← putEntries [] entries))

/-- The entries of a document. A byte order mark may stand in front of it. -/
def parse? (text : String) : Option (List (String × Value)) := do
  let text :=
    match text.toList with
    | '\ufeff' :: rest => rest
    | rest => rest
  documentOf (← readLines (text.length + 1) text)

end FragmentBuild.Toml
