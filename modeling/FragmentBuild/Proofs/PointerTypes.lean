import FragmentBuild.TypeExpr

/-! Pointer types by their spelling. Main statement: a type is split into a target and a qualifier
exactly if it is spelled as a star, the keyword and the target, which is a type in its normal
spelling again. -/
namespace FragmentBuild

theorem squeeze_cons_solid (last : Option Char) (gap : Bool) {c : Char} (rest : List Char)
    (solid : isBlank c = false) :
    squeeze last gap (c :: rest) =
      (if gap && last.any (fun p => !isTight p) && !isTight c then [' '] else []) ++
        c :: squeeze (some c) false rest := by
  rw [squeeze, if_neg (by simp [solid])]
  split <;> rfl

/-- In a text that is squeezed already, white space is one space between two characters. -/
theorem squeeze_eq_self_blank {last : Option Char} {c : Char} {rest : List Char}
    (blank : isBlank c = true) (same : squeeze last false (c :: rest) = c :: rest) :
    last ≠ none ∧ c = ' ' ∧ ∃ d more, rest = d :: more ∧ isBlank d = false ∧
      squeeze (some d) false more = more := by
  rw [squeeze, if_pos blank] at same
  cases rest with
  | nil => cases same
  | cons d more =>
    cases again : isBlank d with
    | true =>
      rw [squeeze, if_pos again] at same
      have short := length_squeeze_le last true more
      rw [same] at short
      simp only [List.length_cons, Bool.toNat_true] at short
      omega
    | false =>
      rw [squeeze_cons_solid last true more again] at same
      split at same
      · next wide =>
        obtain ⟨rfl, tail⟩ := List.cons.inj same
        refine ⟨?_, rfl, d, more, rfl, again, (List.cons.inj tail).2⟩
        rintro rfl
        cases wide
      · obtain ⟨rfl, -⟩ := List.cons.inj same
        rw [blank] at again
        cases again

theorem squeeze_suffix {last : Option Char} {front rest : List Char}
    (solid : ∀ c ∈ front, isBlank c = false)
    (same : squeeze last false (front ++ rest) = front ++ rest) :
    ∃ before, squeeze before false rest = rest := by
  induction front generalizing last with
  | nil => exact ⟨last, same⟩
  | cons c front ih =>
    rw [List.cons_append, squeeze_cons_solid last false _ (solid c List.mem_cons_self)] at same
    exact ih (fun d member => solid d (List.mem_cons_of_mem _ member)) (List.cons.inj same).2

theorem normalize_of_squeeze {c : Char} {rest : List Char} (solid : isBlank c = false)
    (same : squeeze (some c) false rest = rest) : normalize (c :: rest) = c :: rest := by
  rw [normalize, squeeze_cons_solid none false rest solid, same]
  rfl

theorem not_isBlank_of_normal {c : Char} {rest : List Char}
    (normal : normalize (c :: rest) = c :: rest) : isBlank c = false := by
  by_cases blank : isBlank c = true
  · exact absurd rfl (squeeze_eq_self_blank blank normal).1
  · simpa using blank

def continuesWord (c : Char) : Bool := isAlphanumeric c || c == '_'

theorem afterKeyword?_append (keyword : List Char) {c : Char} (rest : List Char)
    (ends : continuesWord c = false) :
    afterKeyword? keyword (keyword ++ c :: rest) = some ((c :: rest).dropWhile isBlank) := by
  have split : restAfter? keyword (keyword ++ c :: rest) = some (c :: rest) :=
    restAfter?_eq_some_iff.mpr rfl
  rw [afterKeyword?, split]
  exact if_neg (by simpa [continuesWord] using ends)

theorem afterKeyword?_eq_some {keyword text rest : List Char}
    (found : afterKeyword? keyword text = some rest) :
    ∃ c more, text = keyword ++ c :: more ∧ continuesWord c = false ∧
      rest = (c :: more).dropWhile isBlank := by
  unfold afterKeyword? at found
  split at found
  · next c more split =>
    split at found
    · cases found
    · next ends =>
      refine ⟨c, more, restAfter?_eq_some_iff.mp split, ?_, (Option.some.inj found).symm⟩
      simpa [continuesWord] using ends
  · cases found

namespace TypeExpr

/-- How a pointer type is spelled: a star, the keyword and the target. A space stands in front of
the target unless its first character ends the keyword. -/
def IsPointer (type : TypeExpr) (qualifier : Qualifier) (target : TypeExpr) : Prop :=
  ∃ c rest, target.text.toList = c :: rest ∧
    (type.text.toList = '*' :: (qualifier.keyword ++ ' ' :: c :: rest) ∨
      type.text.toList = '*' :: (qualifier.keyword ++ c :: rest) ∧ continuesWord c = false)

theorem parse_text (type : TypeExpr) : parse type.text = type := by
  cases type with
  | mk text normal => simp [parse, normal]

/-- What follows the keyword of a type, without its gap, is a target in normal spelling. -/
theorem isPointer_of_afterKeyword? {type : TypeExpr} {qualifier : Qualifier}
    {rest target : List Char} (spelled : type.text.toList = '*' :: rest)
    (found : afterKeyword? qualifier.keyword rest = some target) :
    type.IsPointer qualifier (parse (String.ofList target)) := by
  obtain ⟨c, more, rfl, ends, rfl⟩ := afterKeyword?_eq_some found
  have solid : ∀ d ∈ '*' :: qualifier.keyword, isBlank d = false := by
    have all : ('*' :: qualifier.keyword).all (!isBlank ·) = true := by
      cases qualifier <;> decide +kernel
    simpa using all
  obtain ⟨before, same⟩ := squeeze_suffix solid
    (by have normal := type.normal; rwa [spelled, ← List.cons_append] at normal)
  have target_eq (d : Char) (tail : List Char) (black : isBlank d = false)
      (squeezed : squeeze (some d) false tail = tail) :
      (parse (String.ofList (d :: tail))).text.toList = d :: tail := by
    rw [toList_parse, String.toList_ofList, normalize_of_squeeze black squeezed]
  by_cases blank : isBlank c = true
  · obtain ⟨-, rfl, d, tail, rfl, black, squeezed⟩ := squeeze_eq_self_blank blank same
    have dropped : (' ' :: d :: tail).dropWhile isBlank = d :: tail := by
      simp [List.dropWhile, blank, black]
    rw [dropped]
    exact ⟨d, tail, target_eq d tail black squeezed, .inl spelled⟩
  · rw [Bool.not_eq_true] at blank
    rw [squeeze_cons_solid before false more blank] at same
    have dropped : (c :: more).dropWhile isBlank = c :: more := by
      simp [List.dropWhile, blank]
    rw [dropped]
    exact ⟨c, more, target_eq c more blank (List.cons.inj same).2, .inr ⟨spelled, ends⟩⟩

theorem afterKeyword?_of_isPointer {type target : TypeExpr} {qualifier : Qualifier}
    (pointer : type.IsPointer qualifier target) :
    ∃ rest, type.text.toList = '*' :: (qualifier.keyword ++ rest) ∧
      afterKeyword? qualifier.keyword (qualifier.keyword ++ rest) = some target.text.toList := by
  obtain ⟨c, rest, spelled, gap | ⟨tight, ends⟩⟩ := pointer
  all_goals
    have normal := target.normal
    rw [spelled] at normal
    have black := not_isBlank_of_normal normal
  · refine ⟨' ' :: c :: rest, gap, ?_⟩
    rw [afterKeyword?_append _ _ (by decide +kernel), spelled]
    simp [List.dropWhile, black]
  · refine ⟨c :: rest, tight, ?_⟩
    rw [afterKeyword?_append _ _ ends, spelled]
    simp [List.dropWhile, black]

theorem pointee?_eq_some_iff {type target : TypeExpr} {qualifier : Qualifier} :
    type.pointee? = some (target, qualifier) ↔ type.IsPointer qualifier target := by
  constructor
  · intro split
    unfold pointee? at split
    split at split
    · next rest spelled =>
      split at split
      · next text found =>
        obtain ⟨rfl, rfl⟩ := Prod.mk.inj (Option.some.inj split)
        exact isPointer_of_afterKeyword? spelled found
      · split at split
        · next text found =>
          obtain ⟨rfl, rfl⟩ := Prod.mk.inj (Option.some.inj split)
          exact isPointer_of_afterKeyword? spelled found
        · cases split
    · cases split
  · intro pointer
    obtain ⟨rest, spelled, found⟩ := afterKeyword?_of_isPointer pointer
    have whole : parse (String.ofList target.text.toList) = target := by
      rw [String.ofList_toList, parse_text]
    rw [pointee?, spelled]
    cases qualifier with
    | immutable => simp only [found, whole]
    | mutable =>
      have other : afterKeyword? Qualifier.immutable.keyword
          (Qualifier.mutable.keyword ++ rest) = none := rfl
      simp only [other, found, whole]

end TypeExpr

end FragmentBuild
