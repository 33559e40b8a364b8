/-! What a run reports on standard error. Every report is an event; the verbosity decides
which events are shown and nothing else. -/
namespace FragmentBuild

inductive Topic where
  | registry
  | synthesis
  | build
  | link
  deriving DecidableEq, Repr

namespace Topic

def name : Topic → String
  | .registry => "registry"
  | .synthesis => "synth"
  | .build => "build"
  | .link => "link"

def all : List Topic := [.registry, .synthesis, .build, .link]

def ofName? (name : String) : Option Topic := all.find? (·.name == name)

end Topic

structure Verbosity where
  debug : Bool := false
  topics : List Topic := []
  quiet : Bool := false
  level : Nat := 0
  deriving DecidableEq, Repr, Inhabited

inductive Event where
  /-- A step of the work, or its success. -/
  | phase (indent : Nat) (text : String)
  | debug (text : String)
  | trace (text : String)
  | topic (about : Topic) (text : String)
  deriving DecidableEq, Repr

namespace Verbosity

/-- Debugging raises the level to two; quiet takes everything back. -/
def effectiveLevel (verbosity : Verbosity) : Nat :=
  if verbosity.quiet then 0
  else if verbosity.debug ∧ verbosity.level < 2 then 2
  else verbosity.level

def showsPhases (verbosity : Verbosity) : Bool := !verbosity.quiet

def showsDebug (verbosity : Verbosity) : Bool := 2 ≤ verbosity.effectiveLevel

def showsTrace (verbosity : Verbosity) : Bool := 3 ≤ verbosity.effectiveLevel

def showsTopic (verbosity : Verbosity) (topic : Topic) : Bool :=
  !verbosity.quiet && (verbosity.debug || verbosity.topics.contains topic)

def shows (verbosity : Verbosity) : Event → Bool
  | .phase _ _ => verbosity.showsPhases
  | .debug _ => verbosity.showsDebug
  | .trace _ => verbosity.showsTrace
  | .topic about _ => verbosity.showsTopic about

end Verbosity

def arrow (colour : Bool) : String := if colour then "\x1b[1;92m-->\x1b[0m" else "-->"

def Event.render (colour : Bool) : Event → String
  | .phase indent text =>
    String.ofList (List.replicate indent ' ') ++ arrow colour ++ " " ++ text ++ "\n"
  | .debug text => "debug: " ++ text ++ "\n"
  | .trace text => "trace: " ++ text ++ "\n"
  | .topic about text => "debug[" ++ about.name ++ "]: " ++ text ++ "\n"

end FragmentBuild
