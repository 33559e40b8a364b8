import FragmentBuild.Path
import FragmentBuild.Text.Utf8

/-! Calls of tools, and what a tool that has ended leaves behind. Words for a tool are bytes
and need not be text. -/
namespace FragmentBuild

structure Invocation where
  program : String
  arguments : List ByteArray := []
  /-- Variables set for the tool on top of those it inherits. -/
  environment : List (String × ByteArray) := []
  /-- Where the tool runs, if not where its caller does. -/
  directory : Option Path := none
  deriving DecidableEq

namespace Invocation

def argument (invocation : Invocation) (word : String) : Invocation :=
  { invocation with arguments := invocation.arguments ++ [word.toUTF8] }

def words (invocation : Invocation) : List OsText := invocation.arguments.map .ofBytes

def argumentTexts (invocation : Invocation) : List String := invocation.arguments.map textOf

def argumentAfter? (invocation : Invocation) (flag : String) : Option ByteArray :=
  match invocation.arguments.dropWhile (· != flag.toUTF8) with
  | _ :: value :: _ => some value
  | _ => none

def display (invocation : Invocation) : String :=
  invocation.argumentTexts.foldl (fun line word => line ++ " " ++ word) invocation.program

/-- Whether two invocations are the same call; directories are compared as paths. -/
def same (first second : Invocation) : Bool :=
  first.program == second.program && first.arguments == second.arguments &&
    first.environment == second.environment &&
    match first.directory, second.directory with
    | none, none => true
    | some first, some second => first.same second
    | _, _ => false

end Invocation

structure Report where
  success : Bool
  /-- Missing if a signal ended the tool. -/
  code : Option Int
  output : String := ""
  diagnostics : String := ""
  deriving DecidableEq, Repr

namespace Report

def succeeded : Report := { success := true, code := some 0 }

def failed (code : Option Int) (diagnostics : String) : Report :=
  { success := false, code, diagnostics }

def codeText (report : Report) : String :=
  match report.code with
  | some code => "Some(" ++ toString code ++ ")"
  | none => "None"

end Report

end FragmentBuild
