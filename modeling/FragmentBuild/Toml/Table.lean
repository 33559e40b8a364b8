import FragmentBuild.Toml.Value

/-! Tables while a document is read. A table remembers what made it: later statements may
add to tables that were only implied or dotted, not to tables that were written out. -/
namespace FragmentBuild.Toml

inductive Origin where
  /-- A header of its own, or the document itself. -/
  | header
  /-- A header of a table below it. -/
  | implied
  /-- A dotted key. -/
  | dotted
  deriving DecidableEq, Repr

inductive Node where
  | leaf (value : Value)
  | table (origin : Origin) (entries : List (String × Node))
  /-- An array of tables. -/
  | tables (items : List (List (String × Node)))
  deriving Inhabited

structure KeyPath where
  parents : List String
  last : String
  deriving DecidableEq, Repr

/-- Changes the table at the end of a path. Missing tables on the way come from `made`; an
array of tables stands for its last element; a dotted path does not enter tables that have
a header of their own. -/
def alterAt (made : Origin)
    (change : Origin → List (String × Node) → Option (List (String × Node))) :
    List String → Origin → List (String × Node) → Option (List (String × Node))
  | [], origin, entries => change origin entries
  | key :: path, _, entries =>
    match entries.lookup key with
    | none => do return setEntry key (.table made (← alterAt made change path made [])) entries
    | some (.leaf _) => none
    | some (.table origin children) =>
      if made = .dotted ∧ origin = .header then none
      else do return setEntry key (.table origin (← alterAt made change path origin children)) entries
    | some (.tables items) => do
      let last ← items.getLast?
      let changed ← alterAt made change path .header last
      return setEntry key (.tables (items.dropLast ++ [changed])) entries

/-- Adds an entry. Its key must be new, and a dotted path must end in a table that dotted
keys made. -/
def putEntry (entries : List (String × Node)) (entry : KeyPath × Value) :
    Option (List (String × Node)) :=
  let path := entry.1
  alterAt .dotted (fun origin table =>
    if (origin = .dotted ∨ path.parents = []) ∧ (table.lookup path.last).isNone then
      some (table ++ [(path.last, .leaf entry.2)])
    else none) path.parents .header entries

def putEntries (entries : List (String × Node)) (added : List (KeyPath × Value)) :
    Option (List (String × Node)) :=
  added.foldlM putEntry entries

mutual

def Node.toValue : Node → Value
  | .leaf value => value
  | .table _ entries => .table (entryValues entries)
  | .tables items => .array (tableValues items)

def entryValues : List (String × Node) → List (String × Value)
  | [] => []
  | (key, node) :: rest => (key, node.toValue) :: entryValues rest

def tableValues : List (List (String × Node)) → List Value
  | [] => []
  | entries :: rest => .table (entryValues entries) :: tableValues rest

end

end FragmentBuild.Toml
