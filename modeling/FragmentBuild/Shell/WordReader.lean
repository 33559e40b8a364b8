import FragmentBuild.Shell.Token
import FragmentBuild.Text.Scan

/-! Reading words. Quotes, braces and sums in a word may stand in each other, and each of them
has rules of its own about which characters are special. -/
namespace FragmentBuild.Shell

inductive Mark where
  | part (part : Part)
  | openParameter (name : Bytes) (use : Use) (emptyToo : Bool)
  | closeParameter
  | openArithmetic
  | closeArithmetic

/-- What is open at a point of a word, with the parts in it so far, last first. -/
inductive Enclosure where
  | whole (parts : List Part)
  | parameter (name : Bytes) (use : Use) (emptyToo : Bool) (parts : List Part)
  | arithmetic (parts : List Part)

namespace Enclosure

def add (part : Part) : Enclosure → Enclosure
  | .whole parts => .whole (part :: parts)
  | .parameter name use emptyToo parts => .parameter name use emptyToo (part :: parts)
  | .arithmetic parts => .arithmetic (part :: parts)

def close : Enclosure → List Part
  | .whole parts => parts.reverse
  | .parameter name use emptyToo parts => [.parameter name use emptyToo parts.reverse]
  | .arithmetic parts => [.arithmetic parts.reverse]

def addAll (parts : List Part) (enclosure : Enclosure) : Enclosure :=
  parts.foldl (fun enclosure part => enclosure.add part) enclosure

def step (enclosures : List Enclosure) (mark : Mark) : List Enclosure :=
  match mark, enclosures with
  | .part part, top :: rest => top.add part :: rest
  | .openParameter name use emptyToo, rest => .parameter name use emptyToo [] :: rest
  | .openArithmetic, rest => .arithmetic [] :: rest
  | .closeParameter, inner :: outer :: rest | .closeArithmetic, inner :: outer :: rest =>
    outer.addAll inner.close :: rest
  | _, rest => rest

end Enclosure

/-- The parts that marks stand for. What is not closed ends with the word. -/
def Word.ofMarks (marks : List Mark) : Word :=
  let left := marks.foldl Enclosure.step [.whole []]
  (left.foldl (fun inner enclosure => (enclosure.addAll inner).close) [])

inductive Manner where
  | plain
  | double
  | single
  | arithmetic
  deriving DecidableEq

structure Layer where
  manner : Manner
  /-- Whether a backslash is special only before what double quotes leave special. -/
  isDouble : Bool := false
  /-- Whether there are double quotes within braces. -/
  innerDouble : Bool := false
  /-- How many braces are open. -/
  braces : Nat := 0
  /-- How many of them stand in double quotes. -/
  doubleBraces : Nat := 0
  parentheses : Nat := 0
  /-- Whether the layer ends with its braces. -/
  endsWithBraces : Bool := false

/-- The text of a document ends with a line that says so. -/
structure Closer where
  line : Bytes
  dropsTabs : Bool

/-- A word that is being read: its marks, last first, the layers, innermost first, and whether
something was quoted. -/
structure Draft where
  marks : List Mark := []
  layer : Layer
  outer : List Layer := []
  isQuoted : Bool := false

namespace Draft

def push (draft : Draft) (mark : Mark) : Draft := { draft with marks := mark :: draft.marks }

def bare (draft : Draft) (c : Char) : Draft := draft.push (.part (.bare c))

def quoted (draft : Draft) (c : Char) : Draft := draft.push (.part (.quoted c))

def put (draft : Draft) (c : Char) : Draft :=
  if draft.layer.isDouble || draft.layer.manner == .single then draft.quoted c else draft.bare c

def withLayer (draft : Draft) (change : Layer → Layer) : Draft :=
  { draft with layer := change draft.layer }

def pushLayer (draft : Draft) (layer : Layer) : Draft :=
  { draft with layer, outer := draft.layer :: draft.outer }

def popLayer (draft : Draft) : Draft :=
  match draft.outer with
  | layer :: outer => { draft with layer, outer }
  | [] => draft

/-- A quote shows in a word but not in a document. -/
def quote (draft : Draft) (closer : Option Closer) : Draft :=
  if closer.isSome then draft else draft.push (.part .mark)

/-- Double quotes within braces come in pairs. -/
def doubleQuote (draft : Draft) (closer : Option Closer) : Draft :=
  (draft.withLayer fun layer =>
    if layer.braces = 0 then layer else { layer with innerDouble := !layer.innerDouble }).quote
    closer

/-- A quote that ends what it quotes, unless braces in it are open. -/
def endQuote (draft : Draft) (closer : Option Closer) (c : Char) : Draft :=
  if closer.isSome && draft.layer.braces == 0 then draft.put c
  else
    let draft :=
      if draft.layer.doubleBraces = 0 then
        draft.withLayer ({ · with manner := .plain, isDouble := false })
      else draft
    let draft := { draft with isQuoted := true }
    if c = '"' then draft.doubleQuote closer else draft.quote closer

def closeBrace (draft : Draft) : Draft :=
  let layer := draft.layer
  if layer.innerDouble || layer.braces == 0 then draft.put '}'
  else
    let draft := draft.withLayer ({ · with braces := layer.braces - 1 })
    let draft :=
      if layer.braces = 1 && layer.endsWithBraces then draft.popLayer
      else draft.withLayer ({ · with doubleBraces := layer.doubleBraces - 1 })
    draft.push .closeParameter

def escape (draft : Draft) (closer : Option Closer) (c : Char) : Draft :=
  let layer := draft.layer
  let keepsBackslash := layer.isDouble && !(['\\', '\x60', '$'].contains c) &&
    (c != '"' || closer.isSome && layer.braces == 0) && (c != '}' || layer.braces == 0)
  let draft := if keepsBackslash then draft.quoted '\\' else draft
  { draft.quoted c with isQuoted := true }

/-- Opens a parameter. The operand of a pattern has rules of its own. -/
def openParameter (draft : Draft) (name : Bytes) (use : Use) (emptyToo : Bool)
    (asPattern : Bool) : Draft :=
  let layer := draft.layer
  let manner :=
    if asPattern then .plain else if layer.manner = .arithmetic then .double else layer.manner
  let draft :=
    if manner ≠ layer.manner ∨ layer.innerDouble then
      draft.pushLayer { manner, isDouble := manner != .plain, endsWithBraces := true }
    else draft
  (draft.withLayer fun layer =>
    { layer with
      braces := layer.braces + 1
      doubleBraces := if layer.isDouble then layer.doubleBraces + 1 else layer.doubleBraces
    }).push (.openParameter name use emptyToo)

end Draft

def isSpecialName (c : Char) : Bool := c.isDigit || "#?$!-*@".toList.contains c

def useOfSign? (c : Char) : Option Use :=
  [('-', Use.orElse), ('+', .instead), ('?', .orFail), ('=', .orAssign)].lookup c

namespace Reader

def takeWhileJoined (isKind : Char → Bool) : Nat → Reading Bytes
  | 0 => return []
  | fuel + 1 => do
    match ← takeJoined with
    | some c =>
      if isKind c then return c :: (← takeWhileJoined isKind fuel)
      else
        putBackChar (some c)
        return []
    | none => return []

def takeName (c : Char) : Reading Bytes := do
  return c :: (← takeWhileJoined isNameChar ((← get).rest.length + 1))

def bracedUse (draft : Draft) (name : Bytes) : Reading Draft := do
  let c ← takeJoined
  let (emptyToo, c) ← if c = some ':' then pure (true, ← takeJoined) else pure (false, c)
  match c with
  | some '}' =>
    if emptyToo then return draft.openParameter name .malformed true false
    else return draft.push (.part (.parameter name .value false []))
  | some sign =>
    match useOfSign? sign with
    | some use => return draft.openParameter name use emptyToo false
    | none =>
      if !emptyToo && (sign == '%' || sign == '#') then
        let next ← takeJoined
        if next ≠ some sign then putBackChar next
        return draft.openParameter name (.without (sign == '#') (next == some sign)) false true
      else return draft.openParameter name .malformed emptyToo false
  | none => return draft.openParameter name .malformed emptyToo false

def lengthUse (draft : Draft) (name : Bytes) : Reading Draft := do
  let c ← takeJoined
  putBackChar c
  return draft.openParameter name (if c = some '}' then .length else .malformed) false false

def braced (draft : Draft) : Reading Draft := do
  let malformed := fun (c : Option Char) => do
    putBackChar c
    return draft.openParameter [] .malformed false false
  match ← takeJoined with
  | none => malformed none
  | some '}' => malformed (some '}')
  | some '#' => do
    match ← takeJoined with
    | some c =>
      if isNameStart c then lengthUse draft (← takeName c)
      else if c.isDigit then
        lengthUse draft (c :: (← takeWhileJoined Char.isDigit ((← get).rest.length + 1)))
      else
        let next ← takeJoined
        putBackChar next
        if c ≠ '}' ∧ next = some '}' then
          if isSpecialName c then return draft.openParameter [c] .length false false
          else return draft.openParameter [] .malformed false false
        else
          putBackChar (some c)
          bracedUse draft ['#']
    | none => bracedUse draft ['#']
  | some c =>
    if isNameStart c then bracedUse draft (← takeName c)
    else if c.isDigit then
      bracedUse draft (c :: (← takeWhileJoined Char.isDigit ((← get).rest.length + 1)))
    else if isSpecialName c then bracedUse draft [c]
    else do
      return draft.openParameter [] .malformed false false

/-- The script between backquotes, in which backslashes stand before backslashes, dollar signs
and backquotes. -/
def backquoted (inDouble : Bool) : Nat → Reading Bytes
  | 0 => refuse "EOF in backquote substitution"
  | fuel + 1 => do
    match ← takeJoined with
    | none => refuse "EOF in backquote substitution"
    | some '\x60' => return []
    | some '\\' => do
      match ← take with
      | none => refuse "EOF in backquote substitution"
      | some c =>
        let rest ← backquoted inDouble fuel
        return if ['\\', '\x60', '$'].contains c || (inDouble && c == '"') then c :: rest
          else '\\' :: c :: rest
    | some c => do
      if c = '\n' then countLine
      return c :: (← backquoted inDouble fuel)

/-- Gives the documents that are still expected no text. -/
def closeDocuments : Reading Unit :=
  modify fun reader =>
    { reader with
      expected := []
      documents := reader.documents ++
        reader.expected.map fun document => (document.number, ⟨document.expands, []⟩) }

/-- Reads a script within a word. Its documents end where it ends, and so does its last token. -/
def readScript (reading : Reading (Option Command)) : Reading (Option Command) := do
  let expected := (← get).expected
  modify ({ · with expected := [] })
  let script ← reading
  closeDocuments
  modify ({ · with expected, isPutBack := false })
  return script

/-- Reads from a text of its own, and then goes on where it was before. -/
def readApart (text : Bytes) (reading : Reading α) : Reading α := do
  let before ← get
  set { before with rest := text, line := 1, openAliases := [] }
  let result ← reading
  modify fun reader =>
    { reader with rest := before.rest, line := before.line, openAliases := before.openAliases }
  return result

/-- The end of a document's text if it is here, or else its next line. -/
def lineOrEnd (closer : Option Closer) (c : Option Char) : Reading (Option Char × Bool) := do
  match closer with
  | none => return (c, false)
  | some closer =>
    let text := c.toList ++ (← get).rest
    let text := if closer.dropsTabs then text.dropWhile (· == '\t') else text
    let finish := fun (rest : Bytes) => do
      modify fun reader => { reader with rest, line := reader.line + 1 }
      return (none, true)
    match restAfter? closer.line text with
    | some [] => finish []
    | some ('\n' :: rest) => finish rest
    | _ =>
      modify ({ · with rest := text.drop 1 })
      return (text.head?, false)

def endsWord (c : Char) : Bool := " \t\n;&|<>()".toList.contains c

variable (nested : Bool → Reading (Option Command))

/-- What follows a dollar sign. A script in parentheses is read up to the one that closes it. -/
def dollar (draft : Draft) : Reading Draft := do
  let c ← takeJoined
  let literally := do
    putBackChar c
    return draft.put '$'
  if (← get).checks.closer then literally
  else
    match c with
    | some '(' =>
      let next ← takeJoined
      if next = some '(' then
        return (draft.push .openArithmetic).pushLayer { manner := .arithmetic, isDouble := true }
      else
        putBackChar next
        return draft.push (.part (.command (← readScript (nested true))))
    | some '{' => braced draft
    | some c =>
      if isNameStart c then
        return draft.push (.part (.parameter (← takeName c) .value false []))
      else if isSpecialName c then return draft.push (.part (.parameter [c] .value false []))
      else literally
    | none => literally

def backquote (draft : Draft) : Reading Draft := do
  if (← get).checks.closer then return draft.put '\x60'
  else
    let text ← backquoted draft.layer.isDouble ((← get).rest.length + 1)
    return draft.push (.part (.command (← readScript (readApart text (nested false)))))

def closeArithmetic (draft : Draft) : Reading Draft := do
  if draft.layer.parentheses = 0 then
    let next ← takeJoined
    if next = some ')' then return draft.popLayer.push .closeArithmetic
    else
      putBackChar next
      return draft.put ')'
  else
    return (draft.put ')').withLayer fun layer =>
      { layer with parentheses := layer.parentheses - 1 }

def addChar (closer : Option Closer) (draft : Draft) (c : Char) : Reading Draft := do
  let manner := draft.layer.manner
  if manner = .single then
    return if c = '\'' then draft.endQuote closer c else draft.put c
  else
    match c, manner with
    | '\\', _ =>
      match ← take with
      | some next => return draft.escape closer next
      | none => return draft.quoted '\\'
    | '$', _ => dollar nested draft
    | '\x60', _ => backquote nested draft
    | '}', _ => return draft.closeBrace
    | '\'', .plain => return (draft.withLayer ({ · with manner := .single })).quote closer
    | '"', .plain =>
      return (draft.withLayer ({ · with manner := .double, isDouble := true })).doubleQuote closer
    | '"', .double => return draft.endQuote closer c
    | '(', .arithmetic =>
      return (draft.put c).withLayer fun layer =>
        { layer with parentheses := layer.parentheses + 1 }
    | ')', .arithmetic => closeArithmetic draft
    | _, _ => return draft.put c

/-- Reads a word from its first character on, up to the character that ends it. -/
def marksFrom (closer : Option Closer) :
    Nat → Bool → Draft → Option Char → Reading (Draft × Option Char)
  | 0, _, draft, c => return (draft, c)
  | fuel + 1, atLineStart, draft, c => do
    let (c, ended) ← if atLineStart then lineOrEnd closer c else pure (c, false)
    match c, ended with
    | none, _ | _, true => return (draft, none)
    | some c, false =>
      let isFree := draft.layer.manner == .plain && draft.layer.braces == 0
      if isFree && endsWord c then return (draft, some c)
      else
        if c = '\n' then countLine
        let draft ← if c = '\n' then pure (draft.put c) else addChar nested closer draft c
        let next ← if draft.layer.manner = .single then take else takeJoined
        marksFrom closer fuel (c == '\n') draft next

def readDocuments : Reading Unit := do
  let expected := (← get).expected
  modify ({ · with expected := [] })
  expected.forM fun document => do
    let c ← if document.expands then takeJoined else take
    let layer : Layer :=
      if document.expands then { manner := .double, isDouble := true } else { manner := .single }
    let (draft, _) ←
      marksFrom nested (some ⟨document.closer, document.dropsTabs⟩)
        ((← get).rest.length + 2) true { layer } c
    modify fun reader =>
      { reader with
        documents := reader.documents ++
          [(document.number, ⟨document.expands, Word.ofMarks draft.marks.reverse⟩)] }

/-- Reads a whole text as it would be read in double quotes. -/
def readText : Reading Word := do
  let c ← takeJoined
  let layer : Layer := { manner := .double, isDouble := true }
  let (draft, _) ←
    marksFrom nested (some ⟨['\x00'], false⟩) ((← get).rest.length + 2) false { layer } c
  return Word.ofMarks draft.marks.reverse

def readDirection (c : Char) (digit : Option Char) : Reading Unit := do
  let usual := if c = '>' then 1 else 0
  let descriptor := (digit.map fun d => d.toNat - '0'.toNat).getD usual
  let next ← takeJoined
  let direction ←
    match c, next with
    | '>', some '>' => pure (Direction.file .append)
    | '>', some '|' => pure (.file .overwrite)
    | '>', some '&' | '<', some '&' => pure .duplicate
    | '<', some '>' => pure (.file .update)
    | '<', some '<' => do
      let next ← takeJoined
      if next ≠ some '-' then putBackChar next
      pure (.document (next == some '-'))
    | _, _ => do
      putBackChar next
      pure (.file (if c = '>' then .write else .read))
  modify ({ · with descriptor, direction })

/-- Whether a draft is the number of a descriptor, or nothing at all. -/
def digitOf? (draft : Draft) : Option (Option Char) :=
  if draft.isQuoted then none
  else
    match draft.marks with
    | [] => some none
    | [.part (.bare c)] => if c.isDigit then some (some c) else none
    | _ => none

def readWord (c : Char) : Reading Token := do
  let (draft, last) ←
    marksFrom nested none ((← get).rest.length + 2) false { layer := { manner := .plain } } (some c)
  if draft.layer.manner = .arithmetic then refuse "Missing '))'"
  if draft.layer.manner ≠ .plain then refuse "Unterminated quoted string"
  if draft.layer.braces ≠ 0 then refuse "Missing '\x7d'"
  match last, digitOf? draft with
  | some '>', some digit => do readDirection '>' digit; return .redirection
  | some '<', some digit => do readDirection '<' digit; return .redirection
  | last, _ => do
    putBackChar last
    modify ({ · with word := Word.ofMarks draft.marks.reverse, isQuoted := draft.isQuoted })
    return .word

end Reader

end FragmentBuild.Shell
