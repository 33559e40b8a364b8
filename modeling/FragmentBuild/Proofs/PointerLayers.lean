import FragmentBuild.Proofs.PointerTowers
import FragmentBuild.Proofs.TypeSpellings

/-! Pointers taken off a type one by one. Main statement: a pointer written in front of a type is
taken off again, however it is written. What it leaves stands in the pointer in its normal spelling,
without the star and the keyword, so that a type has no more layers of pointers than a quarter of
its length, and a look-up ends within as many nested questions as there are layers. -/
namespace FragmentBuild

theorem Qualifier.three_le_length_keyword (qualifier : Qualifier) :
    3 ≤ qualifier.keyword.length := by
  cases qualifier <;> decide

namespace TypeExpr

variable {type target : TypeExpr} {qualifier : Qualifier}

theorem IsPointer.length_add_four_le (pointer : type.IsPointer qualifier target) :
    target.length + 4 ≤ type.length := by
  have word := qualifier.three_le_length_keyword
  obtain ⟨c, rest, spelled, gap | ⟨tight, -⟩⟩ := pointer
  · simp only [length, spelled, gap, List.length_cons, List.length_append]
    omega
  · simp only [length, spelled, tight, List.length_cons, List.length_append]
    omega

/-- The text of a type is its own normal spelling. -/
theorem isNormalForm_text (type : TypeExpr) : IsNormalForm type.text.toList type.text.toList :=
  isNormalForm_iff.mpr type.normal.symm

/-- What is left of a type when so many pointers are taken off, if it has them. -/
def below? (type : TypeExpr) : Nat → Option TypeExpr
  | 0 => some type
  | layers + 1 => type.pointee?.bind fun (target, _) => target.below? layers

theorem pointees_of_plain (plain : type.pointee? = none) : type.pointees = [] := by
  rw [pointees]
  split
  · rfl
  · next pointer =>
    rw [plain] at pointer
    cases pointer

theorem pointees_of_pointer (pointer : type.pointee? = some (target, qualifier)) :
    type.pointees = (target, qualifier) :: target.pointees := by
  rw [pointees]
  split
  · next plain =>
    rw [pointer] at plain
    cases plain
  · next same =>
    rw [pointer] at same
    obtain ⟨rfl, rfl⟩ := Prod.mk.inj (Option.some.inj same)
    rfl

/-- The layers of a type are counted by its targets. -/
theorem isSome_below?_iff (type : TypeExpr) (layers : Nat) :
    (type.below? layers).isSome ↔ layers ≤ type.pointees.length := by
  induction layers generalizing type with
  | zero => simp [below?]
  | succ layers ih =>
    cases found : type.pointee? with
    | none => simp [below?, found, pointees_of_plain found]
    | some pointer => simp [below?, found, pointees_of_pointer found, ih]

theorem four_mul_length_pointees_le (type : TypeExpr) :
    4 * type.pointees.length ≤ type.length := by
  induction type using pointees.induct with
  | case1 type plain => simp [pointees_of_plain plain]
  | case2 type target qualifier pointer ih =>
    have shorter := (pointee?_eq_some_iff.mp pointer).length_add_four_le
    rw [pointees_of_pointer pointer, List.length_cons]
    omega

end TypeExpr

namespace Policy

variable {policy : Policy}

/-- A search for `type` that has come to the given rules of the policy ends with this answer, and
asks for targets of targets no more than `depth` times one inside the other. A search that went on
for ever would not be here. -/
inductive Searches (policy : Policy) : Nat → TypeExpr → List Rule → Option HostType → Prop
  | done : Searches policy depth type [] none
  | named : Searches policy depth type (.exact type host :: rest) (some host)
  | unnamed (other : known ≠ type) (onward : Searches policy depth type rest answer) :
      Searches policy depth type (.exact known host :: rest) answer
  | plain (none : type.pointee? = none) (onward : Searches policy depth type rest answer) :
      Searches policy depth type (.rawPointer :: rest) answer
  | through (pointer : type.pointee? = some (target, qualifier))
      (below : Searches policy depth target policy.rules (some host)) :
      Searches policy (depth + 1) type (.rawPointer :: rest) (some (qualifier.pointerTo host))
  | past (pointer : type.pointee? = some (target, qualifier))
      (below : Searches policy depth target policy.rules none)
      (onward : Searches policy (depth + 1) type rest answer) :
      Searches policy (depth + 1) type (.rawPointer :: rest) answer

theorem findSome?_answer_rawPointer (type : TypeExpr) (pointer : Option HostType)
    (rest : List Rule) :
    (Rule.rawPointer :: rest).findSome? (Rule.answer type pointer) =
      pointer.or (rest.findSome? (Rule.answer type pointer)) := by
  cases pointer <;> rfl

/-- A search that ends has the answer of the look-up. -/
theorem Searches.eq_findSome? {rules : List Rule}
    (search : policy.Searches depth type rules answer) :
    answer = rules.findSome? (Rule.answer type (policy.throughTarget type)) := by
  induction search with
  | done => rfl
  | named => simp [Rule.answer]
  | unnamed other _ ih => simpa [Rule.answer, other] using ih
  | plain none _ ih =>
    rwa [findSome?_answer_rawPointer, throughTarget_of_plain none, Option.none_or,
      ← throughTarget_of_plain none]
  | through pointer _ found =>
    rw [findSome?_answer_rawPointer, throughTarget_of_pointee pointer, lookup_eq, ← found,
      Option.map_some, Option.some_or]
  | past pointer _ _ missed ih =>
    have silent : policy.throughTarget _ = none :=
      (throughTarget_of_pointee pointer).trans (by rw [lookup_eq, ← missed, Option.map_none])
    rwa [findSome?_answer_rawPointer, silent, Option.none_or, ← silent]

/-- A search ends if the one for the target of its type does. -/
theorem exists_searches (rules : List Rule)
    (below : ∀ target qualifier, type.pointee? = some (target, qualifier) →
      ∃ less found, depth = less + 1 ∧ policy.Searches less target policy.rules found) :
    ∃ answer, policy.Searches depth type rules answer := by
  induction rules with
  | nil => exact ⟨none, .done⟩
  | cons rule rest ih =>
    obtain ⟨answer, onward⟩ := ih
    cases rule with
    | exact known host =>
      by_cases same : known = type
      · exact ⟨some host, same ▸ .named⟩
      · exact ⟨answer, .unnamed same onward⟩
    | rawPointer =>
      cases pointer : type.pointee? with
      | none => exact ⟨answer, .plain pointer onward⟩
      | some found =>
        obtain ⟨less, answer', rfl, search⟩ := below found.1 found.2 pointer
        cases answer' with
        | none => exact ⟨answer, .past pointer search onward⟩
        | some host => exact ⟨_, .through pointer search⟩

/-- Every search ends, within as many nested questions as its type has layers of pointers. -/
theorem exists_searches_pointees (policy : Policy) (type : TypeExpr) (rules : List Rule) :
    ∃ answer, policy.Searches type.pointees.length type rules answer := by
  induction type using TypeExpr.pointees.induct generalizing rules with
  | case1 type plain =>
    refine exists_searches rules fun target qualifier pointer => ?_
    rw [plain] at pointer
    cases pointer
  | case2 type target qualifier pointer ih =>
    refine exists_searches rules fun target' qualifier' pointer' => ?_
    rw [pointer] at pointer'
    obtain ⟨rfl, rfl⟩ := Prod.mk.inj (Option.some.inj pointer')
    obtain ⟨found, search⟩ := ih policy.rules
    exact ⟨_, found, by rw [TypeExpr.pointees_of_pointer pointer, List.length_cons], search⟩

theorem searches_iff : policy.Searches type.pointees.length type policy.rules answer ↔
    answer = policy.lookup type := by
  constructor
  · intro search
    rw [lookup_eq]
    exact search.eq_findSome?
  · rintro rfl
    obtain ⟨answer, search⟩ := exists_searches_pointees policy type policy.rules
    have same := search.eq_findSome?
    rw [← lookup_eq] at same
    rwa [same] at search

end Policy

/-- A pointer written in front of a type is taken off again, however it is written. A target is
spelled in its pointer, behind the star, the keyword and at most one space, as it is alone, and is
shorter. Pointers can be taken off a type as often as it has targets, which is no more often than a
quarter of its length, and a look-up ends with its one answer after nesting no more questions than
that. -/
theorem pointers_come_off :
    (∀ (spelling : PointerSpelling) (text : String), (TypeExpr.parse text).text ≠ "" →
      (TypeExpr.parse (String.ofList (spelling.write text.toList))).pointee? =
        some (.parse text, spelling.qualifier)) ∧
    (∀ (type target : TypeExpr) (qualifier : Qualifier),
      type.pointee? = some (target, qualifier) →
        type.IsPointer qualifier target ∧
        IsNormalForm target.text.toList target.text.toList ∧ target.length < type.length) ∧
    (∀ (type : TypeExpr) (layers : Nat),
      (type.below? layers).isSome ↔ layers ≤ type.pointees.length) ∧
    (∀ type : TypeExpr, 4 * type.pointees.length ≤ type.length) ∧
    ∀ (policy : Policy) (type : TypeExpr) (answer : Option HostType),
      policy.Searches type.pointees.length type policy.rules answer ↔
        answer = policy.lookup type := by
  refine ⟨fun spelling text named => ?_, fun type target qualifier pointer => ?_,
    TypeExpr.isSome_below?_iff, TypeExpr.four_mul_length_pointees_le,
    fun policy type answer => Policy.searches_iff⟩
  · have lettered : normalize text.toList ≠ [] := by
      rw [← TypeExpr.toList_parse, ne_eq, String.toList_eq_nil_iff]
      exact named
    rw [spelling.pointee?_parse_write lettered, String.ofList_toList]
  · exact ⟨TypeExpr.pointee?_eq_some_iff.mp pointer, target.isNormalForm_text,
      TypeExpr.length_pointee?_lt pointer⟩

/-- The theorem on a pointer to an array, which is spelled without a space. A policy that names it
behind a pointer rule is searched to the end, since it does not map arrays. -/
theorem pointers_come_off_array :
    let spelling : PointerSpelling :=
      { qualifier := .mutable, middle := ['\t'], gap := ['\u3000', ' '] }
    let array := TypeExpr.parse "[ u8 ; 4 ]"
    let pointer := TypeExpr.parse (String.ofList (spelling.write "[ u8 ; 4 ]".toList))
    let policy : Policy := ⟨[.rawPointer, .exact pointer ⟨"buffer"⟩]⟩
    pointer.text = "*mut[u8;4]" ∧ pointer.pointee? = some (array, .mutable) ∧
      pointer.IsPointer .mutable array ∧ IsNormalForm array.text.toList array.text.toList ∧
      array.length < pointer.length ∧ (pointer.below? 1).isSome ∧
      policy.Searches pointer.pointees.length pointer policy.rules (some ⟨"buffer"⟩) := by
  intro spelling array pointer policy
  obtain ⟨splits, spelled, layers, -, ends⟩ := pointers_come_off
  have split : pointer.pointee? = some (array, .mutable) :=
    splits spelling "[ u8 ; 4 ]" (by decide +kernel)
  obtain ⟨inside, normal, shorter⟩ := spelled pointer array .mutable split
  have found : some ⟨"buffer"⟩ = policy.lookup pointer := by decide +kernel
  exact ⟨by decide +kernel, split, inside, normal, shorter,
    (layers pointer 1).mpr (by decide +kernel), (ends policy pointer _).mpr found⟩

end FragmentBuild
