/-! What a text in a data format says, as far as descriptions are read from it: texts, lists
and records. The rules here decide how a structure, a choice or an optional value is found in
it. -/
namespace FragmentBuild

inductive Datum where
  | text (value : String)
  | list (items : List Datum)
  | record (entries : List (String × Datum))
  /-- The value that stands for a missing one. -/
  | nothing
  /-- A value that no description has a use for, such as a number. -/
  | unused
  deriving Inhabited, Repr

/-- What a data format decides on its own. -/
structure Datum.Format where
  /-- Whether a list that stands for a structure may have more items than the structure has
  fields. -/
  allowsSurplus : Bool
  /-- What may stand beside the name of a choice that has no content. -/
  isEmptyContent : Datum → Bool

namespace Datum

def text? : Datum → Option String
  | .text value => some value
  | _ => none

def list? (read : Datum → Option α) : Datum → Option (List α)
  | .list items => items.mapM read
  | _ => none

def entries? (read : Datum → Option α) : Datum → Option (List (String × α))
  | .record entries => entries.mapM fun (key, value) => (read value).map (key, ·)
  | _ => none

def optional? (read : Datum → Option α) : Datum → Option (Option α)
  | .nothing => some none
  | datum => (read datum).map some

/-- The value of a field. Other fields are passed over; a field that occurs twice is an
error. -/
def field? (entries : List (String × Datum)) (name : String) : Option (Option Datum) :=
  match entries.filter (·.1 == name) with
  | [] => some none
  | [entry] => some (some entry.2)
  | _ => none

/-- The fields of a structure, which is a record or a list of the fields in their order. -/
def fields? (format : Format) (names : List String) : Datum → Option (List (Option Datum))
  | .record entries => names.mapM (field? entries)
  | .list items =>
    if names.length < items.length && !format.allowsSurplus then none
    else some ((List.range names.length).map fun index => items[index]?)
  | _ => none

/-- A choice among names: the name as a text, or a record of it alone. -/
def choice? (format : Format) (names : List String) : Datum → Option String
  | .text name => if names.contains name then some name else none
  | .record [(name, content)] =>
    if names.contains name && format.isEmptyContent content then some name else none
  | _ => none

def orElse (default : α) (read : Datum → Option α) : Option Datum → Option α
  | none => some default
  | some datum => read datum

end Datum

end FragmentBuild
