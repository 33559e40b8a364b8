import FragmentBuild.Datum
import FragmentBuild.Toml.Document

/-! What a TOML document says. Surplus items of a list are passed over, and a choice has an
empty table or array beside its name. -/
namespace FragmentBuild.Toml

/-- Dates and times are records of one entry that holds their text. -/
def momentKey : String := "$__toml_private_datetime"

mutual

def Value.datum : Value → Datum
  | .string text => .text text
  | .integer _ | .float _ | .boolean _ => .unused
  | .moment text => .record [(momentKey, .text text)]
  | .array items => .list (itemData items)
  | .table entries => .record (entryData entries)

def itemData : List Value → List Datum
  | [] => []
  | item :: rest => item.datum :: itemData rest

def entryData : List (String × Value) → List (String × Datum)
  | [] => []
  | (key, value) :: rest => (key, value.datum) :: entryData rest

end

def format : Datum.Format where
  allowsSurplus := true
  isEmptyContent
    | .list items => items.isEmpty
    | .record entries => entries.isEmpty
    | _ => false

def datum? (text : String) : Option Datum := (parse? text).map fun entries => .record (entryData entries)

end FragmentBuild.Toml
