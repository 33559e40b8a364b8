import FragmentBuild.Text.Alphanumeric
import FragmentBuild.Text.Scan

/-! Type expressions of the embedded language in one spelling per type. White space is
dropped around punctuation and is a single space between words, so that two texts which
differ only in layout name one type. -/
namespace FragmentBuild

/-- Punctuation that separates its neighbours without white space. -/
def tightPunctuation : List Char :=
  ['<', '>', ',', '(', ')', '[', ']', '&', '*', ';', ':', '=']

def isTight (c : Char) : Bool := tightPunctuation.contains c

/-- The spelling of what follows the kept character `last`; `gap` tells whether white
space has been passed since. A space is written only between two characters that would
otherwise run together. -/
def squeeze (last : Option Char) (gap : Bool) : List Char → List Char
  | [] => []
  | c :: rest =>
    if isBlank c then squeeze last true rest
    else if gap && last.any (fun p => !isTight p) && !isTight c then
      ' ' :: c :: squeeze (some c) false rest
    else c :: squeeze (some c) false rest

def normalize (text : List Char) : List Char := squeeze none false text

theorem squeeze_squeeze (last : Option Char) (gap : Bool) (text : List Char) :
    squeeze last false (squeeze last gap text) = squeeze last gap text := by
  induction text generalizing last gap with
  | nil => rfl
  | cons c rest ih =>
    by_cases blank : isBlank c
    · simp [squeeze, blank, ih]
    · by_cases space : gap && last.any (fun p => !isTight p) && !isTight c
      · have wide : last.any (fun p => !isTight p) && !isTight c := by
          simp only [Bool.and_eq_true] at space ⊢
          exact ⟨space.1.2, space.2⟩
        simp [squeeze, blank, space, wide, ih]
      · simp [squeeze, blank, space, ih]

theorem normalize_normalize (text : List Char) : normalize (normalize text) = normalize text :=
  squeeze_squeeze none false text

theorem length_squeeze_le (last : Option Char) (gap : Bool) (text : List Char) :
    (squeeze last gap text).length ≤ text.length + gap.toNat := by
  induction text generalizing last gap with
  | nil => simp [squeeze]
  | cons c rest ih =>
    have kept := ih (some c) false
    have passed := ih last true
    simp only [Bool.toNat_false, Bool.toNat_true] at kept passed
    unfold squeeze
    split
    · simp only [List.length_cons]; omega
    · split
      · next space =>
        simp only [Bool.and_eq_true] at space
        simp only [List.length_cons, space.1.1, Bool.toNat_true]; omega
      · simp only [List.length_cons]; omega

theorem length_normalize_le (text : List Char) : (normalize text).length ≤ text.length :=
  length_squeeze_le none false text

/-- A type expression, kept in its normal spelling. -/
structure TypeExpr where
  text : String
  normal : normalize text.toList = text.toList := by decide
  deriving DecidableEq, Repr

namespace TypeExpr

def parse (text : String) : TypeExpr where
  text := String.ofList (normalize text.toList)
  normal := by simp [normalize_normalize]

@[simp] theorem toList_parse (text : String) :
    (parse text).text.toList = normalize text.toList := by
  simp [parse]

def isUnit (type : TypeExpr) : Bool := type.text == "()"

instance : Ord TypeExpr := ⟨fun a b => compare a.text b.text⟩

instance : ToString TypeExpr := ⟨text⟩

end TypeExpr

structure HostType where
  text : String
  deriving DecidableEq, Repr

instance : ToString HostType := ⟨HostType.text⟩

/-- What a raw pointer allows to be done with its target. -/
inductive Qualifier where
  | immutable
  | mutable
  deriving DecidableEq, Repr

def Qualifier.keyword : Qualifier → List Char
  | .immutable => ['c', 'o', 'n', 's', 't']
  | .mutable => ['m', 'u', 't']

def Qualifier.pointerTo : Qualifier → HostType → HostType
  | .immutable, target => ⟨"const " ++ target.text ++ "*"⟩
  | .mutable, target => ⟨target.text ++ "*"⟩

/-- What follows a keyword that stands alone: a letter, a number or an underscore would
continue the word, and a keyword with nothing after it qualifies nothing. -/
def afterKeyword? (keyword text : List Char) : Option (List Char) :=
  match restAfter? keyword text with
  | some (c :: rest) =>
    if isAlphanumeric c || c == '_' then none else some ((c :: rest).dropWhile isBlank)
  | _ => none

theorem length_afterKeyword?_le {keyword text rest : List Char}
    (found : afterKeyword? keyword text = some rest) : rest.length ≤ text.length := by
  unfold afterKeyword? at found
  split at found
  · next c tail split =>
    split at found
    · simp at found
    · obtain rfl := Option.some.inj found
      have whole := restAfter?_eq_some_iff.mp split
      have dropped := (List.dropWhile_suffix isBlank (l := c :: tail)).length_le
      have lengths := congrArg List.length whole
      simp only [List.length_append] at lengths
      omega
  · simp at found

namespace TypeExpr

def pointee? (type : TypeExpr) : Option (TypeExpr × Qualifier) :=
  match type.text.toList with
  | '*' :: rest =>
    match afterKeyword? Qualifier.immutable.keyword rest with
    | some target => some (parse (String.ofList target), .immutable)
    | none =>
      match afterKeyword? Qualifier.mutable.keyword rest with
      | some target => some (parse (String.ofList target), .mutable)
      | none => none
  | _ => none

def length (type : TypeExpr) : Nat := type.text.toList.length

theorem length_pointee?_lt {type target : TypeExpr} {qualifier : Qualifier}
    (pointer : type.pointee? = some (target, qualifier)) : target.length < type.length := by
  unfold pointee? at pointer
  split at pointer
  · next rest spelling =>
    have shorter (text : List Char) (le : text.length ≤ rest.length) :
        (parse (String.ofList text)).length < type.length := by
      have normal := length_normalize_le text
      simp only [length, toList_parse, String.toList_ofList, spelling, List.length_cons]
      omega
    split at pointer
    · next text found =>
      obtain ⟨rfl, -⟩ := Prod.mk.inj (Option.some.inj pointer)
      exact shorter text (length_afterKeyword?_le found)
    · split at pointer
      · next text found =>
        obtain ⟨rfl, -⟩ := Prod.mk.inj (Option.some.inj pointer)
        exact shorter text (length_afterKeyword?_le found)
      · simp at pointer
  · simp at pointer

/-- The targets met on the way through a tower of pointers, outermost first. -/
def pointees (type : TypeExpr) : List (TypeExpr × Qualifier) :=
  match _pointer : type.pointee? with
  | none => []
  | some (target, qualifier) => (target, qualifier) :: target.pointees
termination_by type.length
decreasing_by exact length_pointee?_lt _pointer

end TypeExpr

end FragmentBuild
