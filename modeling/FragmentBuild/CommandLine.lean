import FragmentBuild.Log
import FragmentBuild.Path

/-! The command line. Its words are read one after the other, first on the level of the program
and then on that of the command, and the first word that is refused decides what is said.
Options that hold for every command may stand on both levels, and then the inner one counts. -/
namespace FragmentBuild

inductive Command where
  | build (units : List Path) (linkPlan : Option Path)
  | synthesize (unit : Path) (withManifest : Bool)
  | lookup (unit : Path) (type : String)
  deriving DecidableEq, Repr

structure CommandLine where
  command : Command
  settings : Option Path
  verbosity : Verbosity
  deriving DecidableEq, Repr

namespace CommandLine

/-- Why a command line asks for no command. -/
inductive Refusal where
  | help
  | version
  | usage
  deriving DecidableEq, Repr

inductive Level where
  | program
  | build
  | synthesize
  | lookup
  deriving DecidableEq, Repr

def Level.ofName? (name : String) : Option Level :=
  match name with
  | "build" => some .build
  | "synth" => some .synthesize
  | "lookup" => some .lookup
  | _ => none

/-- How many plain words a level takes; no limit if missing. -/
def Level.capacity? : Level → Option Nat
  | .program => some 0
  | .build => none
  | .synthesize => some 1
  | .lookup => some 2

inductive Flag where
  | debug
  | quiet
  | verbose
  | manifest
  | help
  | version
  deriving DecidableEq, Repr

inductive Setting where
  | settings
  | topic
  | linkPlan
  deriving DecidableEq, Repr

inductive Switch where
  | flag (flag : Flag)
  | setting (setting : Setting)

def Level.long? (level : Level) (name : String) : Option Switch :=
  match name, level with
  | "config", _ => some (.setting .settings)
  | "debug-trace", _ => some (.setting .topic)
  | "debug", _ => some (.flag .debug)
  | "quiet", _ => some (.flag .quiet)
  | "verbose", _ => some (.flag .verbose)
  | "help", _ => some (.flag .help)
  | "version", .program => some (.flag .version)
  | "link-plan", .build => some (.setting .linkPlan)
  | "manifest", .synthesize => some (.flag .manifest)
  | _, _ => none

def Level.short? (level : Level) (letter : Char) : Option Flag :=
  match letter, level with
  | 'q', _ => some .quiet
  | 'v', _ => some .verbose
  | 'h', _ => some .help
  | 'V', .program => some .version
  | _, _ => none

/-- What one level has been told. -/
structure Given where
  settings : Option Path := none
  debug : Bool := false
  topics : List Topic := []
  quiet : Bool := false
  verbose : Nat := 0
  linkPlan : Option Path := none
  manifest : Bool := false
  words : List String := []

inductive Place where
  | setting (setting : Setting)
  | word
  deriving DecidableEq

/-- How far a level has been read. Values wait until the next option, since more may follow. -/
structure State where
  given : Given := {}
  waiting : Option (Place × List String) := none
  /-- Whether the option that was read last still lacks its value. -/
  open? : Bool := false
  /-- Whether only plain words follow. -/
  plainOnly : Bool := false

def pathOf (text : String) : Except Refusal Path :=
  if text.isEmpty then .error .usage else .ok ⟨text⟩

namespace Given

def raise (given : Given) : Flag → Except Refusal Given
  | .debug => if given.debug then .error .usage else .ok { given with debug := true }
  | .quiet => if given.quiet then .error .usage else .ok { given with quiet := true }
  | .verbose => .ok { given with verbose := min 255 (given.verbose + 1) }
  | .manifest => if given.manifest then .error .usage else .ok { given with manifest := true }
  | .help => .error .help
  | .version => .error .version

def set (given : Given) (setting : Setting) (value : String) : Except Refusal Given :=
  match setting with
  | .settings =>
    if given.settings.isSome then .error .usage
    else return { given with settings := some (← pathOf value) }
  | .linkPlan =>
    if given.linkPlan.isSome then .error .usage
    else return { given with linkPlan := some (← pathOf value) }
  | .topic =>
    match Topic.ofName? value with
    | some topic => .ok { given with topics := given.topics ++ [topic] }
    | none => .error .usage

/-- Takes plain words. All are paths but the second word of a look-up, which is a type. -/
def addWords (given : Given) (level : Level) (words : List String) : Except Refusal Given :=
  let typeAt := if level = .lookup then some 1 else none
  if (words.zipIdx given.words.length).any fun (word, index) =>
      word.isEmpty && some index != typeAt
  then .error .usage
  else .ok { given with words := given.words ++ words }

end Given

namespace State

def settle (level : Level) (state : State) : Except Refusal State :=
  match state.waiting with
  | none => .ok state
  | some (.setting setting, [value]) =>
    return { state with given := ← state.given.set setting value, waiting := none }
  | some (.setting _, _) => .error .usage
  | some (.word, words) =>
    return { state with given := ← state.given.addWords level words, waiting := none }

def flag (level : Level) (state : State) (flag : Flag) : Except Refusal State := do
  let state ← state.settle level
  return { state with given := ← state.given.raise flag, open? := false }

def flags (level : Level) (state : State) : List Char → Except Refusal State
  | [] => .ok state
  | letter :: rest =>
    match level.short? letter with
    | some found => do (← state.flag level found).flags level rest
    | none => .error .usage

def long (level : Level) (state : State) (text : List Char) : Except Refusal State :=
  let (name, rest) := text.span (· != '=')
  match level.long? (String.ofList name), rest with
  | none, _ => .error .usage
  | some (.flag found), [] => state.flag level found
  | some (.flag _), _ => .error .usage
  | some (.setting setting), [] => do
    let state ← state.settle level
    return { state with waiting := some (.setting setting, []), open? := true }
  | some (.setting setting), _ :: value => do
    let state ← state.settle level
    return { state with
      given := ← state.given.set setting (String.ofList value), open? := false }

/-- Takes a plain word. Words in a row wait together if a level takes any number of them. -/
def word (level : Level) (state : State) (text : String) : Except Refusal State := do
  let before :=
    match state.waiting with
    | some (.word, words) => words
    | _ => []
  let taken := state.given.words.length + before.length
  if level.capacity?.all (taken < ·) then
    match state.waiting, level.capacity? with
    | some (.word, words), none =>
      return { state with waiting := some (.word, words ++ [text]) }
    | _, _ =>
      let state ← state.settle level
      return { state with waiting := some (.word, [text]) }
  else .error .usage

def take (level : Level) (state : State) (text : String) : Except Refusal State :=
  if state.plainOnly then state.word level text
  else
    match text.toList with
    | ['-', '-'] => .ok { state with plainOnly := true }
    | '-' :: '-' :: rest => state.long level rest
    | '-' :: letter :: rest => state.flags level (letter :: rest)
    | _ =>
      match state.open?, state.waiting with
      | true, some (place, values) =>
        .ok { state with waiting := some (place, values ++ [text]), open? := false }
      | _, _ => state.word level text

end State

def refuseForHelp : List String → Refusal
  | [] => .help
  | [name] => if name == "help" || (Level.ofName? name).isSome then .help else .usage
  | _ => .usage

/-- Reads the words of a level, up to the command if there is one on this level. -/
def readLevel (level : Level) :
    List String → State → Except Refusal (State × Option (Level × List String))
  | [], state => .ok (state, none)
  | text :: rest, state =>
    if level = .program ∧ !state.plainOnly ∧ !state.open? ∧ text = "help" then
      .error (refuseForHelp rest)
    else
      match if level = .program ∧ !state.plainOnly ∧ !state.open? then Level.ofName? text
        else none with
      | some inner => .ok (state, some (inner, rest))
      | none => do readLevel level rest (← state.take level text)

def commandOf (level : Level) (given : Given) : Except Refusal Command :=
  match level, given.words with
  | .build, unit :: units => .ok (.build ((unit :: units).map Path.ofText) given.linkPlan)
  | .synthesize, [unit] => .ok (.synthesize ⟨unit⟩ given.manifest)
  | .lookup, [unit, type] => .ok (.lookup ⟨unit⟩ type)
  | _, _ => .error .usage

def verbosityOf (outer inner : Given) : Verbosity where
  debug := outer.debug || inner.debug
  topics := if inner.topics.isEmpty then outer.topics else inner.topics
  quiet := outer.quiet || inner.quiet
  level := if inner.verbose = 0 then outer.verbose else inner.verbose

def parse (words : List String) : Except Refusal CommandLine := do
  let (outer, command) ← readLevel .program words {}
  match command with
  | none => throw .usage
  | some (level, rest) =>
    let (inner, _) ← readLevel level rest {}
    let inner ← inner.settle level
    let command ← commandOf level inner.given
    let outer ← outer.settle .program
    return {
      command
      settings := inner.given.settings.or outer.given.settings
      verbosity := verbosityOf outer.given inner.given }

def version : String := "graft 0.1.0\n"

def usage : String :=
  "Usage: graft [OPTIONS] <COMMAND>\n\nFor more information, try '--help'.\n"

def help : String :=
  String.join (List.map (· ++ "\n") [
    "Build Rust fragments into linkable static archives",
    "",
    "Usage: graft [OPTIONS] <COMMAND>",
    "",
    "Commands:",
    "  build   Build units into static archives",
    "  synth   Print the synthesized source of a unit without building it",
    "  lookup  Translate a foreign type under a unit's policy",
    "  help    Print this message or the help of the given subcommand(s)",
    "",
    "Options:",
    "      --config <CONFIG>",
    "          Path to graft.toml (default: ./graft.toml when present)",
    "",
    "      --debug",
    "          Enable every debug trace",
    "",
    "      --debug-trace <DEBUG_TRACE>",
    "          Enable debug traces for specific components",
    "",
    "          Possible values:",
    "          - registry: Registry lifecycle: state creation, fragments, dependencies",
    "          - synth:    Source and manifest synthesis",
    "          - build:    Toolchain invocations",
    "          - link:     Artifact registration",
    "",
    "  -q, --quiet",
    "          Print only errors",
    "",
    "  -v, --verbose...",
    "          Increase verbosity (-v, -vv, -vvv)",
    "",
    "  -h, --help",
    "          Print help (see a summary with '-h')",
    "",
    "  -V, --version",
    "          Print version"])

end CommandLine

end FragmentBuild
