import FragmentBuild.SystemError
import FragmentBuild.TypeExpr

/-! Why a unit cannot be collected or built. -/
namespace FragmentBuild

inductive Failure where
  /-- The policy of a unit was given although the unit has one. -/
  | policyAlreadySet (unit : String)
  /-- A unit was opened before. -/
  | unitAlreadyOpen (unit : String)
  /-- The policy of a unit has no host type for an embedded type. -/
  | unmappedType (type : TypeExpr)
  /-- A tool ran and did not succeed; its diagnostics are kept as they are. -/
  | toolFailed (tool action diagnostics : String)
  /-- A tool could not be started. -/
  | notStarted (tool : String) (cause : SystemError)
  | inaccessible (path : Path) (cause : SystemError)
  /-- A tool succeeded and left no archive where one was expected. -/
  | archiveMissing (path : Path)
  deriving DecidableEq, Repr

/-- What a failed tool is reported with: its diagnostics follow on lines of their own. -/
def toolReport (tool action diagnostics : String) : String :=
  tool ++ " " ++ action ++ " failed:\n" ++ diagnostics

namespace Failure

def message : Failure → String
  | .policyAlreadySet unit =>
    "configuration error: type translation policy of unit '" ++ unit ++ "' is already set"
  | .unitAlreadyOpen unit =>
    "configuration error: compilation unit '" ++ unit ++ "' is already open"
  | .unmappedType type => "unmapped foreign type: '" ++ type.text ++ "'"
  | .toolFailed tool action diagnostics => toolReport tool action diagnostics
  | .notStarted tool cause => "failed to run " ++ tool ++ ": " ++ cause.message
  | .inaccessible path cause => "failed to access '" ++ path.display ++ "': " ++ cause.message
  | .archiveMissing path =>
    "build finished but no archive was found at '" ++ path.display ++ "'"

def isConfiguration : Failure → Bool
  | .policyAlreadySet _ | .unitAlreadyOpen _ => true
  | _ => false

def isToolchain : Failure → Bool
  | .toolFailed _ _ _ | .notStarted _ _ | .archiveMissing _ => true
  | _ => false

def cause? : Failure → Option SystemError
  | .notStarted _ cause | .inaccessible _ cause => some cause
  | _ => none

instance : ToString Failure := ⟨message⟩

end Failure

end FragmentBuild
