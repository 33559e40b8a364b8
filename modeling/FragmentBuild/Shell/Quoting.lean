import FragmentBuild.Number.Digits
import FragmentBuild.Shell.Script

/-! Texts in quotes, as messages show them. -/
namespace FragmentBuild.Shell

def cEscapes : List (Char × Char) :=
  [('\x07', 'a'), ('\x08', 'b'), ('\x0c', 'f'), ('\n', 'n'), ('\r', 'r'), ('\t', 't'), ('\x0b', 'v')]

def escaped (c : Char) : Bytes :=
  match cEscapes.lookup c with
  | some letter => ['\\', letter]
  | none => '\\' :: paddedDigits 8 3 c.toNat

def isPlain (c : Char) : Bool := ' ' ≤ c && c ≤ '~'

def inQuotes (text : Bytes) : Bytes :=
  let shown := text.flatMap fun c =>
    if c = '\'' ∨ c = '\\' then ['\\', c] else if isPlain c then [c] else escaped c
  '\'' :: shown ++ ['\'']

/-- A text as a shell would have it quoted, with escapes in quotes of another kind. -/
def inShellQuotes (inEscapes : Bool) : Bytes → Bytes
  | [] => ['\'']
  | c :: rest =>
    if isPlain c then
      let start := if inEscapes then ['\'', '\''] else []
      let shown := if c = '\'' then ['\'', '\\', '\'', '\''] else [c]
      start ++ shown ++ inShellQuotes false rest
    else
      let start := if inEscapes then [] else ['\'', '$', '\'']
      start ++ escaped c ++ inShellQuotes true rest

/-- Whether a text is read as one word by a shell. -/
def isWord (text : Bytes) : Bool :=
  !text.isEmpty && text.all isPlain &&
    !text.any (" !\"$&'()*:;<=>?[\\^\x60|".toList.contains ·) &&
    !"#~".toList.contains (text.headD 'a') && text != ['\x7b'] && text != ['\x7d']

/-- A text in quotes only if it could be read as more or less than one word. -/
def asWord (text : Bytes) : Bytes :=
  if isWord text then text
  else if text.contains '\'' && text.all isPlain && !text.any ("\"$\\\x60!".toList.contains ·) then
    '"' :: text ++ ['"']
  else '\'' :: inShellQuotes false text

/-- A text in single quotes, with double quotes around the single quotes in it. -/
def inSingleQuotes (text : Bytes) : Bytes :=
  let rec rows : Nat → Bytes → Bytes
    | 0, _ => []
    | fuel + 1, text =>
      let (plain, rest) := text.span (· != '\'')
      let (marks, rest) := rest.span (· == '\'')
      let shown := if plain.isEmpty && !marks.isEmpty then [] else '\'' :: plain ++ ['\'']
      let shownMarks := if marks.isEmpty then [] else '"' :: marks ++ ['"']
      shown ++ shownMarks ++ if rest.isEmpty then [] else rows fuel rest
  rows (text.length + 1) text

end FragmentBuild.Shell
