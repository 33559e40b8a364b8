import FragmentBuild.Collector
import FragmentBuild.Json.Value
import FragmentBuild.Toml.Datum

/-! Units described in files: a name, the unit's own types, its dependencies and its
fragments. -/
namespace FragmentBuild

structure UnitDescription where
  name : String
  /-- Exact mappings that are asked before the basic policy, in the order of their keys. -/
  types : List (String × String)
  fragments : List String
  dependencies : List Dependency
  deriving DecidableEq, Repr

def Dependency.ofDatum? (format : Datum.Format) (datum : Datum) : Option Dependency := do
  match ← datum.fields? format ["name", "version"] with
  | [name, version] => return ⟨← (← name).text?, ← (← version).text?⟩
  | _ => none

def Dependency.json (package : Dependency) : Json.Value :=
  .object [("name", .string package.name), ("version", .string package.version)]

def fragmentOfDatum? (format : Datum.Format) (datum : Datum) : Option String := do
  match ← datum.fields? format ["code"] with
  | [code] => (← code).text?
  | _ => none

namespace UnitDescription

def ofDatum? (format : Datum.Format) (datum : Datum) : Option UnitDescription := do
  match ← datum.fields? format ["name", "types", "fragment", "dependency"] with
  | [name, types, fragments, dependencies] =>
    return {
      name := ← (← name).text?
      types := sortEntries (← Datum.orElse [] (Datum.entries? Datum.text?) types)
      fragments := ← Datum.orElse [] (Datum.list? (fragmentOfDatum? format)) fragments
      dependencies := ← Datum.orElse [] (Datum.list? (Dependency.ofDatum? format)) dependencies }
  | _ => none

def parse? (text : String) : Option UnitDescription := do
  ofDatum? Toml.format (← Toml.datum? text)

def policy? (description : UnitDescription) : Option Policy :=
  if description.types.isEmpty then none
  else some ((Policy.ofPairs description.types).compose .basic)

/-- The policy first, then dependencies, then fragments, each in the order of the file. -/
def calls (description : UnitDescription) : List Collector.Call :=
  (description.policy?.map .setPolicy).toList ++ description.dependencies.map .dependency
    ++ description.fragments.map .fragment

end UnitDescription

namespace Collector

/-- Makes calls one after the other, up to the first that is refused. -/
def afterAll (collector : Collector ρ) : List Call → Except Failure Unit × Collector ρ
  | [] => (.ok (), collector)
  | call :: rest =>
    match collector.answer call with
    | .ok _ => (collector.after call).afterAll rest
    | .error failure => (.error failure, collector.after call)

end Collector

end FragmentBuild
