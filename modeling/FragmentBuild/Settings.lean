import FragmentBuild.Json.Value
import FragmentBuild.Log
import FragmentBuild.Path
import FragmentBuild.Toml.Datum

/-! The settings of a run: the toolchain it calls and how much it reports. -/
namespace FragmentBuild

/-- How a package build picks its working directory: a fresh one for each build, whose name
starts with a given text, or one of exactly that name. -/
inductive WorkMode where
  | unique
  | fixed
  deriving DecidableEq, Repr, Inhabited

def WorkMode.name : WorkMode → String
  | .unique => "unique"
  | .fixed => "fixed"

def WorkMode.ofDatum? (format : Datum.Format) (datum : Datum) : Option WorkMode := do
  let name ← datum.choice? format ["unique", "fixed"]
  return if name == "fixed" then .fixed else .unique

structure Toolchain where
  compiler : String := "rustc"
  packageTool : String := "cargo"
  /-- Words that both tools pass on to the compiler. -/
  extraArguments : List String := []
  edition : Option String := none
  /-- Where temporary sources and archives go, if not to the system's directory for them. -/
  scratchRoot : Option Path := none
  workMode : WorkMode := .unique
  workName : String := ".graft-quasiquote"
  deriving DecidableEq, Repr, Inhabited

namespace Toolchain

def compilerVariable : String := "GRAFT_RUSTC"

def packageToolVariable : String := "GRAFT_CARGO"

/-- A variable that is set and not empty replaces the tool. -/
def override (toolchain : Toolchain) (lookup : String → Option String) : Toolchain :=
  let named (name tool : String) : String := ((lookup name).filter (!·.isEmpty)).getD tool
  { toolchain with
    compiler := named compilerVariable toolchain.compiler
    packageTool := named packageToolVariable toolchain.packageTool }

def fieldNames : List String :=
  ["rustc", "cargo", "extra_args", "edition", "temp_dir", "work_dir", "work_dir_name"]

def ofDatum? (format : Datum.Format) (datum : Datum) : Option Toolchain := do
  match ← datum.fields? format fieldNames with
  | [compiler, packageTool, extraArguments, edition, scratchRoot, workMode, workName] =>
    let plain : Toolchain := {}
    return {
      compiler := ← Datum.orElse plain.compiler Datum.text? compiler
      packageTool := ← Datum.orElse plain.packageTool Datum.text? packageTool
      extraArguments := ← Datum.orElse [] (Datum.list? Datum.text?) extraArguments
      edition := ← Datum.orElse none (Datum.optional? Datum.text?) edition
      scratchRoot :=
        (← Datum.orElse none (Datum.optional? Datum.text?) scratchRoot).map Path.ofText
      workMode := ← Datum.orElse .unique (WorkMode.ofDatum? format) workMode
      workName := ← Datum.orElse plain.workName Datum.text? workName }
  | _ => none

def ofSettingsDatum? (format : Datum.Format) (datum : Datum) : Option Toolchain := do
  match ← datum.fields? format ["toolchain"] with
  | [toolchain] => Datum.orElse {} (ofDatum? format) toolchain
  | _ => none

def parse? (text : String) : Option Toolchain := do
  ofSettingsDatum? Toml.format (← Toml.datum? text)

/-- There is none if a path is no text. -/
def json? (toolchain : Toolchain) : Option Json.Value := do
  let orNull (text : Option String) : Json.Value := text.elim .null .string
  let scratchRoot ← toolchain.scratchRoot.mapM fun path => path.text.text?
  return .object [
    ("rustc", .string toolchain.compiler),
    ("cargo", .string toolchain.packageTool),
    ("extra_args", .array (toolchain.extraArguments.map .string)),
    ("edition", orNull toolchain.edition),
    ("temp_dir", orNull scratchRoot),
    ("work_dir", .string toolchain.workMode.name),
    ("work_dir_name", .string toolchain.workName)]

def settingsJson? (toolchain : Toolchain) : Option Json.Value :=
  toolchain.json?.map fun json => .object [("toolchain", json)]

end Toolchain

structure Settings where
  verbosity : Verbosity := {}
  toolchain : Toolchain := {}
  deriving Inhabited, Repr

def Settings.silent : Settings := { verbosity := { quiet := true } }

end FragmentBuild
