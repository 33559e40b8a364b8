import FragmentBuild.Shell.Process
import FragmentBuild.Shell.Quoting

/-! What programs that are no shells print when something is wrong. -/
namespace FragmentBuild.Shell.Report

def complain (text : Bytes) : Action Unit := do
  Action.writeError ((← Action.process).name ++ [':', ' '] ++ text ++ ['\n'])

def refuseUsage (text : Bytes) : Action Nat := do
  let name := (← Action.process).name
  complain text
  Action.writeError (ofString "Try '" ++ name ++ ofString " --help' for more information.\n")
  return 1

def complainAbout (text : Bytes) (error : SystemError) : Action Unit :=
  complain (text ++ [':', ' '] ++ ofString error.description)

end FragmentBuild.Shell.Report
