import FragmentBuild.Shell.Script
import FragmentBuild.Text.Scan

/-! Patterns for texts. A star stands for any text, a question mark for one character and a
bracket for one character of a set; a backslash takes the meaning from the character after it. -/
namespace FragmentBuild.Shell

/-- A character of a pattern or of a value, and whether quoting protects it. -/
inductive Glyph where
  | char (c : Char) (isQuoted : Bool)
  /-- A quote that shows that there is a text here, even if it is empty. -/
  | mark
  deriving DecidableEq

namespace Glyph

def char? : Glyph → Option Char
  | .char c _ => some c
  | .mark => none

def text (glyphs : List Glyph) : Bytes := glyphs.filterMap char?

end Glyph

abbrev Pattern := Bytes

namespace Pattern

/-- Puts a backslash before each character that is quoted, unless a backslash that is not quoted
stands there already. -/
def ofGlyphs (afterBackslash : Bool) : List Glyph → Pattern
  | [] => []
  | .mark :: rest => ofGlyphs false rest
  | .char c false :: rest => c :: ofGlyphs (c == '\\') rest
  | .char c true :: rest =>
    if afterBackslash then c :: ofGlyphs false rest else '\\' :: c :: ofGlyphs false rest

def classes : List (String × (Char → Bool)) :=
  [("alnum", Char.isAlphanum), ("alpha", Char.isAlpha), ("blank", fun c => c == ' ' || c == '\t'),
    ("cntrl", fun c => c < ' ' || c == '\x7f'), ("digit", Char.isDigit),
    ("graph", fun c => '!' ≤ c && c ≤ '~'), ("lower", Char.isLower),
    ("print", fun c => ' ' ≤ c && c ≤ '~'),
    ("punct", fun c => '!' ≤ c && c ≤ '~' && !c.isAlphanum),
    ("space", fun c => c == ' ' || '\t' ≤ c && c ≤ '\r'), ("upper", Char.isUpper),
    ("xdigit", fun c => c.isDigit || 'a' ≤ c && c ≤ 'f' || 'A' ≤ c && c ≤ 'F')]

def class? (text : Pattern) : Option ((Char → Bool) × Pattern) :=
  classes.findSome? fun (name, holds) =>
    (restAfter? (':' :: name.toList ++ [':', ']']) text).map (holds, ·)

/-- Whether a character is in a set, and what follows the bracket that closes it. The set begins
with its first character, which may be such a bracket. -/
def setFrom (subject : Char) : Nat → Bool → Pattern → Option (Bool × Pattern)
  | 0, _, _ | _, _, [] => none
  | fuel + 1, found, c :: rest =>
    let goOn := fun (found : Bool) (rest : Pattern) =>
      match rest with
      | ']' :: rest => some (found, rest)
      | rest => setFrom subject fuel found rest
    let range := fun (low : Char) (rest : Pattern) =>
      match rest with
      | '-' :: '\\' :: high :: rest =>
        goOn (found || (low ≤ subject && subject ≤ high)) rest
      | '-' :: high :: rest' =>
        if high = ']' then goOn (found || subject == low) rest
        else goOn (found || (low ≤ subject && subject ≤ high)) rest'
      | rest => goOn (found || subject == low) rest
    match c, rest, class? rest with
    | '[', _, some (holds, rest) => goOn (found || holds subject) rest
    | '\\', c :: rest, _ => range c rest
    | '\\', [], _ => none
    | c, rest, _ => range c rest

def set? (subject : Char) (text : Pattern) : Option (Bool × Pattern) :=
  let (isInverted, text) :=
    match text with
    | '!' :: rest => (true, rest)
    | text => (false, text)
  (setFrom subject (text.length + 1) false text).map fun (found, rest) =>
    (found != isInverted, rest)

def matchesFrom : Nat → Pattern → Bytes → Bool
  | 0, _, _ => false
  | _ + 1, [], text => text.isEmpty
  | fuel + 1, '*' :: rest, text =>
    matchesFrom fuel rest text ||
      match text with
      | [] => false
      | _ :: text => matchesFrom fuel ('*' :: rest) text
  | _ + 1, _ :: _, [] => false
  | fuel + 1, '?' :: rest, _ :: text => matchesFrom fuel rest text
  | fuel + 1, '[' :: rest, c :: text =>
    match set? c rest with
    | some (isMeant, rest) => isMeant && matchesFrom fuel rest text
    | none => c == '[' && matchesFrom fuel rest text
  | fuel + 1, '\\' :: p :: rest, c :: text => p == c && matchesFrom fuel rest text
  | fuel + 1, p :: rest, c :: text => p == c && matchesFrom fuel rest text

def fits (pattern : Pattern) (text : Bytes) : Bool :=
  matchesFrom (pattern.length + text.length + 1) pattern text

/-- The text without the shortest or longest part at one of its ends that a pattern stands
for. -/
def cut (pattern : Pattern) (atFront longest : Bool) (text : Bytes) : Bytes :=
  let counts := List.range (text.length + 1)
  let counts := if atFront = longest then counts.reverse else counts
  let isCut := fun (count : Nat) =>
    Pattern.fits pattern (if atFront then text.take count else text.drop count)
  match counts.find? isCut with
  | some count => if atFront then text.drop count else text.take count
  | none => text

/-- Whether there is a set at the front of a text: a bracket that is closed in the same name. -/
def closesSet : Nat → Pattern → Bool
  | 0, _ => false
  | fuel + 1, text =>
    let text :=
      match text with
      | '\\' :: rest => rest
      | text => text
    match text with
    | [] | '/' :: _ => false
    | _ :: ']' :: _ => true
    | _ :: rest => closesSet fuel rest

end Pattern

end FragmentBuild.Shell
