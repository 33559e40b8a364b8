import FragmentBuild.Shell.WordReader

/-! Reading commands. A script is read up to the end of a line on which a command is complete. -/
namespace FragmentBuild.Shell

namespace Reader

/-- A text past blanks, comments and joints of lines. -/
def pastBlanks (inComment : Bool) : Bytes → Nat → Bytes × Nat
  | [], line => ([], line)
  | '\\' :: '\n' :: rest, line =>
    if inComment then ('\n' :: rest, line) else pastBlanks false rest (line + 1)
  | c :: rest, line =>
    if inComment then if c = '\n' then (c :: rest, line) else pastBlanks true rest line
    else if c = ' ' ∨ c = '\t' then pastBlanks false rest line
    else if c = '#' then pastBlanks true rest line
    else (c :: rest, line)

variable (nested : Bool → Reading (Option Command))

def twice (second : Char) (one two : Token) : Reading Token := do
  let next ← takeJoined
  if next = some second then return two
  else
    putBackChar next
    return one

/-- The next token, without a look at what a word means. -/
def scanToken : Reading Token := do
  if (← get).isPutBack then
    modify ({ · with isPutBack := false })
    return (← get).token
  modify fun reader =>
    let (rest, line) := pastBlanks false reader.rest reader.line
    { reader with rest, line }
  let token ←
    match ← take with
    | none => pure Token.stop
    | some '\n' => do countLine; pure .newline
    | some '&' => twice '&' .background .both
    | some '|' => twice '|' .pipe .either
    | some ';' => twice ';' .semicolon .endOfArm
    | some '(' => pure .openParenthesis
    | some ')' => pure .closeParenthesis
    | some c => readWord nested c
  modify ({ · with token })
  return token

def scanPastLines : Nat → Reading Token
  | 0 => scanToken nested
  | fuel + 1 => do
    match ← scanToken nested with
    | .newline => do
      readDocuments nested
      scanPastLines fuel
    | token => return token

/-- Leaves the aliases whose text has been read, and says whether one of them lets the next word
be an alias. -/
def leaveAliases : Reading Bool := do
  let reader ← get
  if reader.openAliases.isEmpty then return false
  let left := reader.rest.length
  let (ended, stillOpen) := reader.openAliases.partition fun aliased => left < aliased.left
  set { reader with openAliases := stillOpen }
  return ended.any (·.goesOn)

/-- The text of the alias that the word read last is, if it is not within itself. -/
def aliasText? (started : Nat) : Reading (Option (Bytes × Bytes)) := do
  let reader ← get
  match reader.word.plain? with
  | none => return none
  | some name =>
    let isOpen := reader.openAliases.any fun aliased =>
      aliased.name == name && aliased.left < started
    if isOpen then return none else return (reader.aliases.lookup name).map (name, ·)

/-- The next token for some checks. The texts of aliases are read in their places. -/
def readTokenFor (checks : Checks) : Nat → Reading Token
  | 0 => scanToken nested
  | fuel + 1 => do
    let reader ← get
    let hasAliases := !reader.aliases.isEmpty
    let started := if hasAliases then reader.rest.length else 0
    let lines := if checks.lineEnds then reader.rest.length + 2 else 0
    let token ← scanPastLines nested lines
    let goesOn ← leaveAliases
    let checks := { checks with aliases := checks.aliases || goesOn }
    modify ({ · with checks := {} })
    let reader ← get
    if token ≠ .word ∨ reader.isQuoted then return token
    match reader.word.plain? with
    | none => return token
    | some text =>
      if checks.keywords && Token.keywords.contains (toText text) then
        let token := Token.keyword (toText text)
        set { reader with token }
        return token
      else if checks.aliases && hasAliases then
        match ← aliasText? started with
        | none => return token
        | some (name, value) => do
          let goesOn := value.getLast?.any fun c => c == ' ' || c == '\t'
          set { reader with
            rest := value ++ reader.rest
            openAliases := ⟨name, reader.rest.length, goesOn⟩ :: reader.openAliases }
          readTokenFor checks fuel
      else return token

def readToken : Reading Token := do
  let reader ← get
  readTokenFor nested reader.checks (reader.aliases.length + 1)

def readRedirection : Reading Redirection := do
  let { descriptor, direction, .. } ← get
  if let .document _ := direction then check { closer := true }
  if (← readToken nested) ≠ .word then refuseToken none
  let reader ← get
  match direction with
  | .file access => return .file descriptor access reader.word
  | .duplicate => return .duplicate descriptor reader.word
  | .document dropsTabs => do
    let text := reader.word.filterMap fun part =>
      match part with
      | .bare c | .quoted c => some c
      | _ => none
    let closer := if dropsTabs then text.dropWhile (· == '\t') else text
    let number := reader.nextDocument
    let document : Expected := { number, closer, dropsTabs, expands := !reader.isQuoted }
    set { reader with nextDocument := number + 1, expected := reader.expected ++ [document] }
    return .document descriptor number

def anyCommand : Checks := { keywords := true, aliases := true }

def anyCommandBelow : Checks := { anyCommand with lineEnds := true }

def expect (token : Token) : Reading Unit := do
  if (← readToken nested) ≠ token then refuseToken (some token)

def expectKeyword (name : String) : Reading Unit := expect nested (.keyword name)

def readRedirections : Nat → Reading (List Redirection)
  | 0 => return []
  | fuel + 1 => do
    if (← readToken nested) = .redirection then
      let redirection ← readRedirection nested
      return redirection :: (← readRedirections fuel)
    else
      putBack
      return []

def readWords : Nat → Reading (List Word)
  | 0 => return []
  | fuel + 1 => do
    if (← readToken nested) = .word then
      let word := (← get).word
      return word :: (← readWords fuel)
    else return []

/-- The patterns of an arm, the first of which has been read. -/
def readPatterns : Nat → Reading (List Word)
  | 0 => return []
  | fuel + 1 => do
    let word := (← get).word
    if (← readToken nested) = .pipe then
      let _ ← readToken nested
      return word :: (← readPatterns fuel)
    else return [word]

/-- The names that no function can have. -/
def reservedNames : List String :=
  [".", ":", "break", "continue", "eval", "exec", "exit", "export", "local", "readonly", "return",
    "set", "shift", "times", "trap", "unset"]

inductive Extent where
  /-- Up to the end of a line. -/
  | line
  /-- Up to a token that no command begins with, with one command at least. -/
  | block
  /-- The same, but there need not be a command. -/
  | script
  deriving DecidableEq

def follow (before : Option Command) (command : Command) : Command :=
  match before with
  | none => command
  | some before => .sequence before command

def inBackground : Command → Command
  | .pipe stages _ => .pipe stages true
  | .redirected line body redirections => .background line body redirections
  | command => .background 0 command []

mutual

/-- Commands after each other, and whether the script has ended instead. -/
def commands (extent : Extent) (before : Option Command) :
    Nat → Reading (Option Command × Bool)
  | 0 => refuse "too deep"
  | fuel + 1 => do
    let nested := (script · fuel)
    check { anyCommand with lineEnds := extent != .line }
    match ← readToken nested with
    | .newline => do
      readDocuments nested
      return (before, false)
    | .stop => do
      readDocuments nested
      putBack
      modify ({ · with token := .stop })
      return (before, before.isNone && extent == .line)
    | token =>
      putBack
      if extent ≠ .line ∧ (extent = .script ∨ before.isSome) ∧ token.endsList then
        return (before, false)
      else
        let command ← chain fuel
        let token ← readToken nested
        let command := if token = .background then inBackground command else command
        let all := follow before command
        match token with
        | .stop => do
          readDocuments nested
          putBack
          modify ({ · with token := .stop })
          return (some all, false)
        | .newline => do
          putBack
          commands extent (some all) fuel
        | .background | .semicolon => commands extent (some all) fuel
        | _ => do
          if extent = .line then refuseToken none
          putBack
          return (some all, false)
termination_by structural fuel => fuel

/-- The script within a word, with or without a parenthesis that closes it. -/
def script (closes : Bool) : Nat → Reading (Option Command)
  | 0 => refuse "too deep"
  | fuel + 1 => do
    let (found, _) ← commands .script none fuel
    if closes then expect (script · fuel) .closeParenthesis
    return found
termination_by structural fuel => fuel

/-- Commands in a block, of which there is one at least, unless the script ends: then what has to
follow the block is missing. -/
def block : Nat → Reading Command
  | 0 => refuse "too deep"
  | fuel + 1 => do
    match ← commands .block none fuel with
    | (some command, _) => return command
    | (none, _) => return .simple 0 [] [] []
termination_by structural fuel => fuel

/-- Pipelines of which some run only if others have succeeded or failed. -/
def chain : Nat → Reading Command
  | 0 => refuse "too deep"
  | fuel + 1 => do
    chainFrom (← pipeline fuel) fuel
termination_by structural fuel => fuel

def chainFrom (first : Command) : Nat → Reading Command
  | 0 => refuse "too deep"
  | fuel + 1 => do
    match ← readToken (script · fuel) with
    | .both => do
      check anyCommandBelow
      chainFrom (.both first (← pipeline fuel)) fuel
    | .either => do
      check anyCommandBelow
      chainFrom (.either first (← pipeline fuel)) fuel
    | _ => do
      putBack
      return first
termination_by structural fuel => fuel

def pipeline : Nat → Reading Command
  | 0 => refuse "too deep"
  | fuel + 1 => do
    let isNegated := (← readToken (script · fuel)) == .keyword "!"
    if isNegated then check anyCommand else putBack
    let first ← command fuel
    let rest ← stages fuel
    let all := if rest.isEmpty then first else .pipe (first :: rest) false
    return if isNegated then .negated all else all
termination_by structural fuel => fuel

def stages : Nat → Reading (List Command)
  | 0 => refuse "too deep"
  | fuel + 1 => do
    if (← readToken (script · fuel)) = .pipe then
      check anyCommandBelow
      let stage ← command fuel
      return stage :: (← stages fuel)
    else
      putBack
      return []
termination_by structural fuel => fuel

def command : Nat → Reading Command
  | 0 => refuse "too deep"
  | fuel + 1 => do
    let nested := (script · fuel)
    let line := (← get).line
    match ← readToken nested with
    | .keyword "if" => do
      let body ← branch fuel
      redirected line body fuel
    | .keyword "while" => do
      let body ← loop true fuel
      redirected line body fuel
    | .keyword "until" => do
      let body ← loop false fuel
      redirected line body fuel
    | .keyword "for" => do
      let body ← each line fuel
      redirected line body fuel
    | .keyword "case" => do
      let body ← choice line fuel
      redirected line body fuel
    | .openParenthesis => do
      let body ← block fuel
      expect nested .closeParenthesis
      check anyCommand
      return .subshell line body (← readRedirections nested ((← get).rest.length + 1))
    | .keyword "\x7b" => do
      let body ← block fuel
      expectKeyword nested "\x7d"
      redirected line body fuel
    | .word | .redirection => do
      putBack
      simple line [] [] [] fuel
    | _ => refuseToken none
termination_by structural fuel => fuel

def redirected (line : Nat) (body : Command) : Nat → Reading Command
  | 0 => refuse "too deep"
  | fuel + 1 => do
    check anyCommand
    match ← readRedirections (script · fuel) ((← get).rest.length + 1) with
    | [] => return body
    | redirections => return .redirected line body redirections
termination_by structural fuel => fuel

def branch : Nat → Reading Command
  | 0 => refuse "too deep"
  | fuel + 1 => do
    let nested := (script · fuel)
    let condition ← block fuel
    expectKeyword nested "then"
    let yes ← block fuel
    match ← readToken nested with
    | .keyword "elif" => return .branch condition yes (some (← branch fuel))
    | .keyword "else" => do
      let no ← block fuel
      expectKeyword nested "fi"
      return .branch condition yes (some no)
    | .keyword "fi" => return .branch condition yes none
    | _ => refuseToken (some (.keyword "fi"))
termination_by structural fuel => fuel

def loop (expected : Bool) : Nat → Reading Command
  | 0 => refuse "too deep"
  | fuel + 1 => do
    let condition ← block fuel
    expectKeyword (script · fuel) "do"
    let body ← block fuel
    expectKeyword (script · fuel) "done"
    return .loop expected condition body
termination_by structural fuel => fuel

def each (line : Nat) : Nat → Reading Command
  | 0 => refuse "too deep"
  | fuel + 1 => do
    let nested := (script · fuel)
    let token ← readToken nested
    let name := (← get).word.plain?.getD []
    if token ≠ .word ∨ (← get).isQuoted ∨ !isName name then refuse "Bad for loop variable"
    check anyCommandBelow
    let words ←
      if (← readToken nested) = .keyword "in" then
        let words ← readWords nested ((← get).rest.length + 1)
        let token := (← get).token
        if token ≠ .newline ∧ token ≠ .semicolon then refuseToken none
        pure words
      else
        if (← get).token ≠ .semicolon then putBack
        pure [Word.allArguments]
    check anyCommandBelow
    expectKeyword nested "do"
    let body ← block fuel
    expectKeyword nested "done"
    return .each line name words body
termination_by structural fuel => fuel

def choice (line : Nat) : Nat → Reading Command
  | 0 => refuse "too deep"
  | fuel + 1 => do
    let nested := (script · fuel)
    expect nested .word
    let subject := (← get).word
    check anyCommandBelow
    expectKeyword nested "in"
    return .choice line subject (← arms fuel)
termination_by structural fuel => fuel

def arms : Nat → Reading (List (List Word × Option Command))
  | 0 => refuse "too deep"
  | fuel + 1 => do
    let nested := (script · fuel)
    check { lineEnds := true, keywords := true }
    let token ← readToken nested
    if token = .keyword "esac" then return []
    if token = .openParenthesis then
      let _ ← readToken nested
    let patterns ← readPatterns nested ((← get).rest.length + 1)
    if (← get).token ≠ .closeParenthesis then refuseToken (some .closeParenthesis)
    let (body, _) ← commands .script none fuel
    check { lineEnds := true, keywords := true }
    match ← readToken nested with
    | .keyword "esac" => return [(patterns, body)]
    | .endOfArm => return (patterns, body) :: (← arms fuel)
    | _ => refuseToken (some .endOfArm)
termination_by structural fuel => fuel

/-- A command without commands of its own, or the definition of one that has a body. -/
def simple (line : Nat) (assignments words : List Word) (redirections : List Redirection) :
    Nat → Reading Command
  | 0 => refuse "too deep"
  | fuel + 1 => do
    let nested := (script · fuel)
    check { aliases := words.isEmpty }
    match ← readToken nested with
    | .word => do
      let word := (← get).word
      if words.isEmpty && word.isAssignment then
        simple line (assignments ++ [word]) words redirections fuel
      else simple line assignments (words ++ [word]) redirections fuel
    | .redirection => do
      let redirection ← readRedirection nested
      simple line assignments words (redirections ++ [redirection]) fuel
    | .openParenthesis => do
      match assignments, words, redirections with
      | [], [word], [] => do
        expect nested .closeParenthesis
        let name := word.plain?.getD []
        if !isName name ∨ reservedNames.contains (toText name) then
          refuse "Bad function name"
        check anyCommandBelow
        let line := (← get).line
        return .define line name (← command fuel)
      | _, _, _ => do
        putBack
        return .simple line assignments words redirections
    | _ => do
      putBack
      return .simple line assignments words redirections
termination_by structural fuel => fuel

end

/-- What has been read from a script: a line, which may be empty, or its end. -/
inductive Line where
  | command (command : Option Command)
  | stop

def nextLine : Reading Line := do
  modify ({ · with isPutBack := false, checks := {}, expected := [] })
  let fuel := 16 * (← get).rest.length + 64
  match ← commands .line none fuel with
  | (none, true) => return .stop
  | (command, _) => return .command command

/-- Whether nothing is left after the line that has been read. -/
def isAtEnd (reader : Reader) : Bool := reader.isPutBack && reader.token == .stop

end Reader

end FragmentBuild.Shell
