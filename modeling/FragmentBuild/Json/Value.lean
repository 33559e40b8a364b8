import FragmentBuild.Datum
import FragmentBuild.Number.Digits

/-! JSON values, how they are written, and what they say. -/
namespace FragmentBuild.Json

inductive Value where
  | null
  | boolean (value : Bool)
  /-- A number as it was written. -/
  | number (word : String)
  | string (text : String)
  | array (items : List Value)
  | object (entries : List (String × Value))
  /-- A string, or an object with a key, that holds half of a surrogate pair and so is no
  text. -/
  | unpaired
  deriving Inhabited, Repr

/-- The escape of a character that a string cannot hold raw. -/
def escape? (c : Char) : Option (List Char) :=
  match c with
  | '"' => some ['\\', '"']
  | '\\' => some ['\\', '\\']
  | '\x08' => some ['\\', 'b']
  | '\x0c' => some ['\\', 'f']
  | '\n' => some ['\\', 'n']
  | '\r' => some ['\\', 'r']
  | '\t' => some ['\\', 't']
  | c =>
    if c.toNat < 0x20 then
      some (['\\', 'u'] ++ (paddedDigits 16 4 c.toNat).map Char.toLower)
    else none

def writeString (text : List Char) : List Char :=
  '"' :: text.flatMap (fun c => (escape? c).getD [c]) ++ ['"']

/-- How values are laid out: on one line, or with every item on a line of its own. -/
inductive Layout where
  | compact
  | lines (depth : Nat)
  deriving DecidableEq, Repr

namespace Layout

def deeper : Layout → Layout
  | .compact => .compact
  | .lines depth => .lines (depth + 1)

def lineStart : Layout → List Char
  | .compact => []
  | .lines depth => '\n' :: List.replicate (2 * depth) ' '

def colon : Layout → List Char
  | .compact => [':']
  | .lines _ => [':', ' ']

end Layout

mutual

def Value.write (layout : Layout) : Value → List Char
  | .null => ['n', 'u', 'l', 'l']
  | .boolean true => ['t', 'r', 'u', 'e']
  | .boolean false => ['f', 'a', 'l', 's', 'e']
  | .number word => word.toList
  | .string text => writeString text.toList
  | .array [] => ['[', ']']
  | .array items => '[' :: writeItems layout.deeper items ++ layout.lineStart ++ [']']
  | .object [] => ['{', '}']
  | .object entries => '{' :: writeEntries layout.deeper entries ++ layout.lineStart ++ ['}']
  | .unpaired => ['"', '"']

def writeItems (layout : Layout) : List Value → List Char
  | [] => []
  | [item] => layout.lineStart ++ item.write layout
  | item :: rest => layout.lineStart ++ item.write layout ++ ',' :: writeItems layout rest

def writeEntries (layout : Layout) : List (String × Value) → List Char
  | [] => []
  | [(key, value)] =>
    layout.lineStart ++ writeString key.toList ++ layout.colon ++ value.write layout
  | (key, value) :: rest =>
    layout.lineStart ++ writeString key.toList ++ layout.colon ++ value.write layout
      ++ ',' :: writeEntries layout rest

end

def Value.render (layout : Layout) (value : Value) : String := String.ofList (value.write layout)

mutual

def Value.datum : Value → Datum
  | .null => .nothing
  | .string text => .text text
  | .array items => .list (itemData items)
  | .object entries => .record (entryData entries)
  | .boolean _ | .number _ | .unpaired => .unused

def itemData : List Value → List Datum
  | [] => []
  | item :: rest => item.datum :: itemData rest

def entryData : List (String × Value) → List (String × Datum)
  | [] => []
  | (key, value) :: rest => (key, value.datum) :: entryData rest

end

/-- A list for a structure has no surplus items, and a choice has null beside its name. -/
def format : Datum.Format where
  allowsSurplus := false
  isEmptyContent
    | .nothing => true
    | _ => false

end FragmentBuild.Json
