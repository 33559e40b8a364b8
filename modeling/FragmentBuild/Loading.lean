import FragmentBuild.Program
import FragmentBuild.Settings
import FragmentBuild.UnitDescription

/-! Reading settings and units from files. -/
namespace FragmentBuild

inductive Subject where
  | settings
  | unit
  deriving DecidableEq, Repr

inductive LoadError where
  | unreadable (subject : Subject) (path : Path) (cause : SystemError)
  | invalid (subject : Subject) (path : Path)
  deriving DecidableEq, Repr

namespace LoadError

def message : LoadError → String
  | .unreadable .settings path cause =>
    "failed to read '" ++ path.display ++ "': " ++ cause.message
  | .unreadable .unit path cause =>
    "failed to read unit '" ++ path.display ++ "': " ++ cause.message
  | .invalid .settings path => "failed to parse '" ++ path.display ++ "': "
  | .invalid .unit path => "invalid unit '" ++ path.display ++ "': "

def cause? : LoadError → Option SystemError
  | .unreadable _ _ cause => some cause
  | .invalid _ _ => none

end LoadError

def parsed (subject : Subject) (path : Path) (read : String → Option α) (text : String) :
    Except LoadError α :=
  match read text with
  | some value => .ok value
  | none => .error (.invalid subject path)

/-- What a file describes. The file has to be text. -/
def load (subject : Subject) (read : String → Option α) (path : Path) :
    Program (Except LoadError α) := do
  match ← Program.request (.read path) with
  | .error cause => return .error (.unreadable subject path cause)
  | .ok contents =>
    match String.fromUTF8? contents with
    | some text => return parsed subject path read text
    | none => return .error (.unreadable subject path .invalidText)

def loadSettings (path : Path) : Program (Except LoadError Toolchain) :=
  load .settings Toolchain.parse? path

def loadUnit (path : Path) : Program (Except LoadError UnitDescription) :=
  load .unit UnitDescription.parse? path

end FragmentBuild
