import FragmentBuild.CommandLine
import FragmentBuild.Compilation
import FragmentBuild.Loading

/-! The commands. Each reads its settings and units from files, does its work and prints what it
made. -/
namespace FragmentBuild

inductive Problem where
  | load (error : LoadError)
  | failure (failure : Failure)
  | linkPlan (path : Path) (cause : SystemError)
  deriving DecidableEq, Repr

def Problem.message : Problem → String
  | .load error => error.message
  | .failure cause => cause.message
  | .linkPlan path cause =>
    "failed to write link plan '" ++ path.display ++ "': " ++ cause.message

abbrev Work (α : Type) := ExceptT Problem Program α

namespace Work

def ofLoad (program : Program (Except LoadError α)) : Work α :=
  ExceptT.mk do return (← program).mapError .load

def ofTask (task : Task α) : Work α := ExceptT.mk do return (← task.run).mapError .failure

def print (text : String) : Work Unit := ExceptT.lift (Program.request (.print text))

end Work

/-- The settings file that is read if it is there and no other is asked for. -/
def usualSettings : Path := ⟨"graft.toml"⟩

def toolchainFor (path : Option Path) : Work Toolchain := do
  match path with
  | some path => Work.ofLoad (loadSettings path)
  | none =>
    let present : Bool ← ExceptT.lift (Program.request (.isPresent usualSettings))
    if present then Work.ofLoad (loadSettings usualSettings) else return {}

/-- The settings of a run. Variables count more than files. -/
def settingsFor (line : CommandLine) : Work Settings := do
  let toolchain ← toolchainFor line.settings
  let compiler ← ExceptT.lift (Program.request (.environment Toolchain.compilerVariable))
  let packageTool ← ExceptT.lift (Program.request (.environment Toolchain.packageToolVariable))
  let named := fun (name : String) =>
    if name = Toolchain.compilerVariable then compiler.bind OsText.text?
    else if name = Toolchain.packageToolVariable then packageTool.bind OsText.text?
    else none
  return ⟨line.verbosity, toolchain.override named⟩

def loadUnits : List Path → Work (List UnitDescription)
  | [] => return []
  | path :: rest => do
    let unit ← Work.ofLoad (loadUnit path)
    return unit :: (← loadUnits rest)

def callAll (compilation : Compilation) (collector : UnitCollector) :
    List Collector.Call → Work UnitCollector
  | [] => return collector
  | call :: rest => do
    let (answer, collector) ← ExceptT.lift (compilation.call collector call)
    let _ ← ExceptT.mk (pure (answer.mapError Problem.failure))
    callAll compilation collector rest

def openUnit (compilation : Compilation) (name : String) :
    Work (UnitCollector × Compilation) :=
  Work.ofTask (ExceptT.mk (compilation.openUnit name))

def buildUnit (compilation : Compilation) (unit : UnitDescription) : Work Compilation := do
  let (collector, compilation) ← openUnit compilation unit.name
  let collector ← callAll compilation collector unit.calls
  match ← Work.ofTask (compilation.finishUnit collector) with
  | some archive => Work.print (archive.display ++ "\n")
  | none =>
    ExceptT.lift (Program.report compilation.settings.verbosity
      (.debug (unit.name ++ ": nothing to build")))
  return compilation

def buildUnits (compilation : Compilation) : List UnitDescription → Work Compilation
  | [] => return compilation
  | unit :: rest => do buildUnits (← buildUnit compilation unit) rest

def writeLinkPlan (path : Path) : Work Unit := do
  let plan ← ExceptT.lift (Program.request .linkPlan)
  match plan.render? with
  | none => throw (.linkPlan path .pathNotText)
  | some text =>
    match ← ExceptT.lift (Program.request (.write path text.toUTF8)) with
    | .ok () => return
    | .error cause => throw (.linkPlan path cause)

/-- Builds units in turn. All are read before the first is built. -/
def build (settings : Settings) (paths : List Path) (linkPlan : Option Path) : Work Unit := do
  let units ← loadUnits paths
  let compilation ← ExceptT.lift (Compilation.start settings .basic)
  let _ ← buildUnits compilation units
  match linkPlan with
  | some path => writeLinkPlan path
  | none => return

/-- Prints what would be built, and builds nothing. -/
def synthesize (settings : Settings) (path : Path) (withManifest : Bool) : Work Unit := do
  let unit ← Work.ofLoad (loadUnit path)
  let compilation ← ExceptT.lift (Compilation.start settings .basic)
  let (collector, compilation) ← openUnit compilation unit.name
  let collector ← callAll compilation collector unit.calls
  match collector.state? with
  | none => return
  | some state =>
    ExceptT.lift (Program.report settings.verbosity (Job.synthesized state))
    let job := Job.ofState state settings.toolchain ⟨""⟩
    Work.print job.source
    match job.manifest, withManifest with
    | some manifest, true => Work.print ("\n" ++ manifest)
    | _, _ => return

def lookup (settings : Settings) (path : Path) (type : TypeExpr) : Work Unit := do
  let unit ← Work.ofLoad (loadUnit path)
  let compilation ← ExceptT.lift (Compilation.start settings .basic)
  let (collector, compilation) ← openUnit compilation unit.name
  let collector ← callAll compilation collector (unit.policy?.map .setPolicy).toList
  let (answer, _) ← ExceptT.lift (compilation.call collector (.query type))
  match answer with
  | .ok (.host host) => Work.print (host.text ++ "\n")
  | .ok _ => return
  | .error failure => throw (.failure failure)

def CommandLine.run (line : CommandLine) : Work Unit := do
  let settings ← settingsFor line
  match line.command with
  | .build units linkPlan => build settings units linkPlan
  | .synthesize unit withManifest => synthesize settings unit withManifest
  | .lookup unit type => lookup settings unit (.parse type)

inductive Ending where
  | done
  | refused (refusal : CommandLine.Refusal)
  | stopped (problem : Problem)
  deriving DecidableEq, Repr

namespace Ending

def code : Ending → Nat
  | .done | .refused .help | .refused .version => 0
  | .stopped _ => 1
  | .refused .usage => 2

def output : Ending → String
  | .refused .help => CommandLine.help
  | .refused .version => CommandLine.version
  | _ => ""

def diagnostics : Ending → String
  | .stopped problem => "Error: " ++ problem.message ++ "\n"
  | .refused .usage => CommandLine.usage
  | _ => ""

end Ending

/-- Does what the words of a command line ask for. -/
def perform (words : List String) : Program Ending :=
  match CommandLine.parse words with
  | .error refusal => return .refused refusal
  | .ok line => do
    match ← line.run.run with
    | .ok () => return .done
    | .error problem => return .stopped problem

end FragmentBuild
