import FragmentBuild.Proofs.PolicyComposition

/-! What a policy owes to the set of its rules alone. The order of the rules decides which host
type is given, but not whether one is given: pointer rules ask the whole policy, so a rule that
stands behind them counts for their targets too. -/
namespace FragmentBuild.Policy

/-- Some rules of the policy, taken in any order, give a type a host type. -/
inductive Gives (policy : Policy) : TypeExpr → HostType → Prop where
  | exact {type : TypeExpr} {host : HostType} (member : .exact type host ∈ policy.rules) :
      Gives policy type host
  | pointer {type target : TypeExpr} {qualifier : Qualifier} {host : HostType}
      (member : .rawPointer ∈ policy.rules) (pointer : type.pointee? = some (target, qualifier))
      (inner : Gives policy target host) : Gives policy type (qualifier.pointerTo host)

theorem Gives.mono {one other : Policy} (subset : one.rules ⊆ other.rules)
    (given : one.Gives type host) : other.Gives type host := by
  induction given with
  | exact member => exact .exact (subset member)
  | pointer member pointer _ ih => exact .pointer (subset member) pointer ih

theorem gives_of_lookup {policy : Policy} (type : TypeExpr)
    (known : policy.lookup type = some host) : policy.Gives type host := by
  rw [lookup_eq] at known
  obtain ⟨rule, member, answer⟩ := List.exists_of_findSome?_eq_some known
  cases rule with
  | exact named own =>
    by_cases same : named = type
    · obtain rfl : own = host := by simpa [Rule.answer, same] using answer
      exact .exact (same ▸ member)
    · simp [Rule.answer, same] at answer
  | rawPointer =>
    obtain ⟨⟨target, qualifier⟩, pointer, mapped⟩ := Option.bind_eq_some_iff.mp answer
    obtain ⟨inner, found, rfl⟩ := Option.map_eq_some_iff.mp mapped
    have shorter := TypeExpr.length_pointee?_lt pointer
    exact .pointer member pointer (gives_of_lookup target found)
termination_by type.length

theorem isSome_lookup_of_answer {policy : Policy} (member : rule ∈ policy.rules)
    (answer : rule.answer type (policy.throughTarget type) = some host) :
    (policy.lookup type).isSome := by
  rw [lookup_eq, List.findSome?_isSome_iff]
  exact ⟨rule, member, by simp [answer]⟩

theorem Gives.isSome_lookup {policy : Policy} (given : policy.Gives type host) :
    (policy.lookup type).isSome := by
  induction given with
  | @exact type host member =>
    have answer : (Rule.exact type host).answer type (policy.throughTarget type) = some host := by
      simp [Rule.answer]
    exact isSome_lookup_of_answer member answer
  | @pointer type target qualifier host member pointer _ ih =>
    obtain ⟨own, known⟩ := Option.isSome_iff_exists.mp ih
    have answer : policy.throughTarget type = some (qualifier.pointerTo own) := by
      rw [throughTarget_of_pointee pointer, known, Option.map_some]
    exact isSome_lookup_of_answer member answer

theorem isSome_lookup_iff (policy : Policy) (type : TypeExpr) :
    (policy.lookup type).isSome ↔ ∃ host, policy.Gives type host := by
  constructor
  · intro mapped
    obtain ⟨host, known⟩ := Option.isSome_iff_exists.mp mapped
    exact ⟨host, gives_of_lookup type known⟩
  · rintro ⟨host, given⟩
    exact given.isSome_lookup

theorem isSome_lookup_mono {one other : Policy} (subset : one.rules ⊆ other.rules)
    (mapped : (one.lookup type).isSome) : (other.lookup type).isSome := by
  rw [isSome_lookup_iff] at mapped ⊢
  obtain ⟨host, given⟩ := mapped
  exact ⟨host, given.mono subset⟩

/-- The policies have the same rules, in whatever order and however often. -/
def SameRules (one other : Policy) : Prop := ∀ rule, rule ∈ one.rules ↔ rule ∈ other.rules

theorem isSome_lookup_congr {one other : Policy} (same : SameRules one other) (type : TypeExpr) :
    (one.lookup type).isSome = (other.lookup type).isSome := by
  rw [Bool.eq_iff_iff]
  exact ⟨isSome_lookup_mono fun rule => (same rule).mp,
    isSome_lookup_mono fun rule => (same rule).mpr⟩

/-- No type is named with two host types, and no raw pointer is named at all. -/
structure IsUnambiguous (policy : Policy) : Prop where
  single : ∀ type one other, .exact type one ∈ policy.rules → .exact type other ∈ policy.rules →
    one = other
  plain : ∀ type host, .exact type host ∈ policy.rules → type.pointee? = none

theorem IsUnambiguous.unique {policy : Policy} (clear : policy.IsUnambiguous)
    (given : policy.Gives type one) (again : policy.Gives type other) : one = other := by
  induction given generalizing other with
  | exact member =>
    cases again with
    | exact member' => exact clear.single _ _ _ member member'
    | pointer _ pointer _ => simp [clear.plain _ _ member] at pointer
  | pointer _ pointer _ ih =>
    cases again with
    | exact member => simp [clear.plain _ _ member] at pointer
    | pointer _ pointer' inner =>
      obtain ⟨rfl, rfl⟩ : _ ∧ _ := by simpa [pointer] using pointer'
      rw [ih inner]

theorem IsUnambiguous.lookup_congr {one other : Policy} (clear : one.IsUnambiguous)
    (same : SameRules one other) (type : TypeExpr) : one.lookup type = other.lookup type := by
  have mapped := isSome_lookup_congr same type
  cases known : one.lookup type with
  | none =>
    rw [known, Option.isSome_none, eq_comm, Option.isSome_eq_false_iff] at mapped
    exact (Option.isNone_iff_eq_none.mp mapped).symm
  | some host =>
    rw [known, Option.isSome_some, eq_comm, Option.isSome_iff_exists] at mapped
    obtain ⟨answer, found⟩ := mapped
    have given := (gives_of_lookup type found).mono fun rule => (same rule).mpr
    rw [found, clear.unique (gives_of_lookup type known) given]

/-- A way to compose policies two by two. -/
inductive Grouping where
  | alone (policy : Policy)
  | pair (first second : Grouping)

namespace Grouping

def composed : Grouping → Policy
  | .alone policy => policy
  | .pair first second => first.composed.compose second.composed

/-- The policies that are composed, from left to right. -/
def parts : Grouping → List Policy
  | .alone policy => [policy]
  | .pair first second => first.parts ++ second.parts

theorem mem_rules_composed (grouping : Grouping) (rule : Rule) :
    rule ∈ grouping.composed.rules ↔ ∃ part ∈ grouping.parts, rule ∈ part.rules := by
  induction grouping with
  | alone policy => simp [composed, parts]
  | pair first second first_ih second_ih =>
    simp [composed, compose, parts, first_ih, second_ih, or_and_right, exists_or]

end Grouping

/-- Whether a type is mapped depends on the set of the rules: more rules map more types, the same
rules in another order and number map the same types, and so do policies composed in another order
and grouping, which map all that their parts map. If no rule is ambiguous, the host types depend
on the set of the rules too. -/
theorem mapped_types_by_rule_set :
    (∀ one other : Policy, one.rules ⊆ other.rules →
      ∀ type, (one.lookup type).isSome → (other.lookup type).isSome) ∧
    (∀ one other : Policy, SameRules one other →
      ∀ type, (one.lookup type).isSome = (other.lookup type).isSome) ∧
    (∀ first second : Policy, ∀ type,
      ((first.compose second).lookup type).isSome = ((second.compose first).lookup type).isSome ∧
      ((first.lookup type).isSome ∨ (second.lookup type).isSome →
        ((first.compose second).lookup type).isSome)) ∧
    (∀ one other : Grouping, (∀ part, part ∈ one.parts ↔ part ∈ other.parts) →
      ∀ type, (one.composed.lookup type).isSome = (other.composed.lookup type).isSome) ∧
    (∀ grouping : Grouping, ∀ part ∈ grouping.parts,
      ∀ type, (part.lookup type).isSome → (grouping.composed.lookup type).isSome) ∧
    (∀ one other : Policy, one.IsUnambiguous → SameRules one other →
      ∀ type, one.lookup type = other.lookup type) := by
  refine ⟨fun one other subset type => isSome_lookup_mono subset,
    fun one other => isSome_lookup_congr, ?_, ?_, ?_,
    fun one other clear => clear.lookup_congr⟩
  · intro first second type
    constructor
    · refine isSome_lookup_congr ?_ type
      intro rule
      simp [compose, or_comm]
    · rintro (mapped | mapped)
      · exact isSome_lookup_mono (List.subset_append_left _ _) mapped
      · exact isSome_lookup_mono (List.subset_append_right _ _) mapped
  · intro one other same type
    refine isSome_lookup_congr ?_ type
    intro rule
    simp only [Grouping.mem_rules_composed, same]
  · intro grouping part member type
    refine isSome_lookup_mono ?_
    intro rule named
    exact (grouping.mem_rules_composed rule).mpr ⟨part, member, named⟩

/-- The theorem on a tower of pointers, for two rules in either order and for three policies in
two groupings. With the exact rule for a pointer in `handles` the order does matter. -/
theorem mapped_types_by_rule_set_tower :
    let front : Policy := ⟨[.rawPointer, .exact (.parse "Point") ⟨"struct point"⟩]⟩
    let behind : Policy := ⟨[.exact (.parse "Point") ⟨"struct point"⟩, .rawPointer, .rawPointer]⟩
    front.lookup (.parse "*mut *const Point") = behind.lookup (.parse "*mut *const Point") ∧
      behind.lookup (.parse "*mut *const Point") = some ⟨"const struct point**"⟩ ∧
      ((Grouping.pair (.alone handles) (.pair (.alone points) (.alone basic))).composed.lookup
        (.parse "*mut *const Point")).isSome =
        ((Grouping.pair (.pair (.alone basic) (.alone handles)) (.alone points)).composed.lookup
          (.parse "*mut *const Point")).isSome ∧
      (handles.compose points).lookup (.parse "*const Point") ≠
        (points.compose ⟨handles.rules.reverse⟩).lookup (.parse "*const Point") := by
  intro front behind
  obtain ⟨-, -, -, grouped, -, same⟩ := mapped_types_by_rule_set
  have clear : front.IsUnambiguous := by
    constructor
    · intro type one other member member'
      simp only [front, List.mem_cons, Rule.exact.injEq, reduceCtorEq, false_or,
        List.not_mem_nil, or_false] at member member'
      rw [member.2, member'.2]
    · intro type host member
      simp only [front, List.mem_cons, Rule.exact.injEq, reduceCtorEq, false_or,
        List.not_mem_nil, or_false] at member
      rw [member.1]
      decide +kernel
  refine ⟨same front behind clear ?_ _, by decide +kernel, grouped _ _ ?_ _, by decide +kernel⟩
  · intro rule
    simp [front, behind, or_comm]
  · intro part
    simp only [Grouping.parts, List.mem_append, List.mem_cons, List.not_mem_nil, or_false]
    grind

end FragmentBuild.Policy
