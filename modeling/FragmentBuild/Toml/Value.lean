import FragmentBuild.Entries
import FragmentBuild.Number.Binary64

/-! The values of TOML documents. -/
namespace FragmentBuild.Toml

inductive Value where
  | string (text : String)
  | integer (number : Int64)
  | float (number : Binary64)
  | boolean (value : Bool)
  /-- A date, a time or both, in the spelling of the document. -/
  | moment (text : String)
  | array (items : List Value)
  /-- The entries in their order; a key occurs once. -/
  | table (entries : List (String × Value))
  deriving Repr, Inhabited

/-- A table in the order of its keys, in which a later entry replaces an earlier one. -/
def Value.sortedTable (entries : List (String × Value)) : Value :=
  .table (sortEntries entries)

def isBareKeyChar (c : Char) : Bool := c.isAlphanum || c == '_' || c == '-'

def isBareKey (key : List Char) : Bool := !key.isEmpty && key.all isBareKeyChar

end FragmentBuild.Toml
