import FragmentBuild.Policy
import Mathlib.Tactic.ByContra

/-! What a policy becomes when a second one is asked after it. Pointer rules ask the whole policy,
so the second policy can let a pointer rule of the first one answer that stayed silent before, in
front of the rule that answered then. Main statement: this is the only way in which a mapped type
gets another host type. -/
namespace FragmentBuild

theorem Qualifier.pointerTo_inj {qualifier : Qualifier} {one other : HostType} :
    qualifier.pointerTo one = qualifier.pointerTo other ↔ one = other := by
  constructor
  · intro same
    cases one
    cases other
    cases qualifier <;> simpa [pointerTo, String.ext_iff] using same
  · rintro rfl
    rfl

/-- What a rule answers for a type, if pointer rules answer `pointer`. -/
def Rule.answer (type : TypeExpr) (pointer : Option HostType) : Rule → Option HostType
  | .exact known host => if known = type then some host else none
  | .rawPointer => pointer

/-- Whether a rule can answer for a type. -/
def Rule.concerns (type : TypeExpr) : Rule → Bool
  | .exact known _ => known = type
  | .rawPointer => true

namespace Policy

def throughTarget (policy : Policy) (type : TypeExpr) : Option HostType :=
  type.pointee?.bind fun (target, qualifier) => (policy.lookup target).map qualifier.pointerTo

/-- The host type in the first exact rule for a type. -/
def named (policy : Policy) (type : TypeExpr) : Option HostType :=
  policy.rules.findSome? (Rule.answer type none)

/-- A pointer rule stands before every exact rule for the type. -/
def PointsFirst (policy : Policy) (type : TypeExpr) : Prop :=
  policy.rules.find? (Rule.concerns type) = some .rawPointer

instance (policy : Policy) (type : TypeExpr) : Decidable (policy.PointsFirst type) :=
  inferInstanceAs (Decidable (_ = _))

theorem lookup_eq (policy : Policy) (type : TypeExpr) :
    policy.lookup type =
      policy.rules.findSome? (Rule.answer type (policy.throughTarget type)) := by
  rw [lookup]
  congr 1
  funext rule
  cases rule with
  | exact known host => rfl
  | rawPointer =>
    simp only [Rule.answer, throughTarget]
    split <;> simp_all

theorem throughTarget_of_pointee {policy : Policy} {type : TypeExpr}
    (pointer : type.pointee? = some (target, qualifier)) :
    policy.throughTarget type = (policy.lookup target).map qualifier.pointerTo := by
  rw [throughTarget, pointer, Option.bind_some]

theorem throughTarget_of_plain {policy : Policy} {type : TypeExpr}
    (plain : type.pointee? = none) : policy.throughTarget type = none := by
  rw [throughTarget, plain, Option.bind_none]

/-- The answer of pointer rules counts only if one stands in front, and then it comes first. -/
theorem findSome?_answer (type : TypeExpr) (pointer : Option HostType) (rules : List Rule) :
    rules.findSome? (Rule.answer type pointer) =
      if rules.find? (Rule.concerns type) = some .rawPointer then
        pointer.or (rules.findSome? (Rule.answer type none))
      else rules.findSome? (Rule.answer type none) := by
  induction rules with
  | nil => simp
  | cons rule rest ih =>
    cases rule with
    | exact known host =>
      by_cases same : known = type
      · simp [Rule.answer, Rule.concerns, same]
      · simp [Rule.answer, Rule.concerns, same, ih]
    | rawPointer => cases pointer <;> simp [Rule.answer, Rule.concerns, List.findSome?_cons]

theorem lookup_cases (policy : Policy) (type : TypeExpr) :
    policy.lookup type =
      if policy.PointsFirst type then (policy.throughTarget type).or (policy.named type)
      else policy.named type := by
  rw [lookup_eq, findSome?_answer]
  rfl

/-- In a composed policy the rules of the first one come first and ask the composed one. -/
theorem lookup_compose (first second : Policy) (type : TypeExpr) :
    (first.compose second).lookup type =
      (if first.PointsFirst type then
          ((first.compose second).throughTarget type).or (first.named type)
        else first.named type).or
      (second.rules.findSome? (Rule.answer type ((first.compose second).throughTarget type))) := by
  rw [lookup_eq, compose, List.findSome?_append, findSome?_answer type _ first.rules]
  rfl

theorem lookup_compose_of_not_pointsFirst {first : Policy} (second : Policy)
    (exact : ¬ first.PointsFirst type) (known : first.lookup type = some host) :
    (first.compose second).lookup type = some host := by
  rw [lookup_cases, if_neg exact] at known
  rw [lookup_compose, if_neg exact, known, Option.some_or]

theorem lookup_compose_of_target {first second : Policy}
    (pointer : type.pointee? = some (target, qualifier)) (leads : first.PointsFirst type)
    (mapped : (first.compose second).lookup target = some host) :
    (first.compose second).lookup type = some (qualifier.pointerTo host) := by
  rw [lookup_compose, if_pos leads, throughTarget_of_pointee pointer, mapped]
  rfl

theorem lookup_compose_of_silent {first second : Policy} (leads : first.PointsFirst type)
    (silent : (first.compose second).throughTarget type = none)
    (known : first.named type = some host) :
    (first.compose second).lookup type = some host := by
  rw [lookup_compose, if_pos leads, silent, Option.none_or, known, Option.some_or]

/-- What a policy answers for a type whose pointer rule comes first: the pointer to what it
answers for the target or, if it does not map that, what a rule behind names. -/
theorem lookup_of_pointsFirst {policy : Policy} (leads : policy.PointsFirst type)
    (known : policy.lookup type = some host) :
    (∃ target qualifier inner, type.pointee? = some (target, qualifier) ∧
        policy.lookup target = some inner ∧ host = qualifier.pointerTo inner) ∨
      policy.throughTarget type = none ∧ policy.named type = some host := by
  rw [lookup_cases, if_pos leads] at known
  cases asked : policy.throughTarget type with
  | none => exact .inr ⟨rfl, by simpa [asked] using known⟩
  | some answer =>
    obtain rfl : answer = host := by simpa [asked] using known
    obtain ⟨⟨target, qualifier⟩, pointer, mapped⟩ := Option.bind_eq_some_iff.mp asked
    obtain ⟨inner, found, rfl⟩ := Option.map_eq_some_iff.mp mapped
    exact .inl ⟨target, qualifier, inner, pointer, found, rfl⟩

theorem isSome_lookup_compose {first : Policy} (second : Policy) (type : TypeExpr)
    (known : first.lookup type = some host) :
    ∃ answer, (first.compose second).lookup type = some answer := by
  by_cases leads : first.PointsFirst type
  · rcases lookup_of_pointsFirst leads known with
      ⟨target, qualifier, inner, pointer, found, -⟩ | ⟨-, behind⟩
    · have shorter := TypeExpr.length_pointee?_lt pointer
      obtain ⟨answer, mapped⟩ := isSome_lookup_compose second target found
      exact ⟨_, lookup_compose_of_target pointer leads mapped⟩
    · cases asked : (first.compose second).throughTarget type with
      | none => exact ⟨_, lookup_compose_of_silent leads asked behind⟩
      | some answer => exact ⟨answer, by rw [lookup_compose, if_pos leads, asked]; rfl⟩
  · exact ⟨host, lookup_compose_of_not_pointsFirst second leads known⟩
termination_by type.length

/-- With the second policy a pointer rule of the first one answers otherwise than the rule that
answered without it, for the type itself or for a target that the answer was built on. -/
inductive Overtaken (first second : Policy) : TypeExpr → Prop where
  | here {type target : TypeExpr} {qualifier : Qualifier} {own host : HostType}
      (pointer : type.pointee? = some (target, qualifier)) (leads : first.PointsFirst type)
      (unmapped : first.lookup target = none) (known : first.lookup type = some own)
      (mapped : (first.compose second).lookup target = some host)
      (differs : own ≠ qualifier.pointerTo host) : Overtaken first second type
  | deeper {type target : TypeExpr} {qualifier : Qualifier}
      (pointer : type.pointee? = some (target, qualifier)) (leads : first.PointsFirst type)
      (inner : Overtaken first second target) : Overtaken first second type

theorem Overtaken.changed {first second : Policy} (overtaken : Overtaken first second type) :
    ∃ own host, first.lookup type = some own ∧ (first.compose second).lookup type = some host ∧
      own ≠ host := by
  induction overtaken with
  | here pointer leads unmapped known mapped differs =>
    exact ⟨_, _, known, lookup_compose_of_target pointer leads mapped, differs⟩
  | @deeper type target qualifier pointer leads inner ih =>
    obtain ⟨own, host, known, mapped, differs⟩ := ih
    refine ⟨qualifier.pointerTo own, qualifier.pointerTo host, ?_,
      lookup_compose_of_target pointer leads mapped, ?_⟩
    · rw [lookup_cases, if_pos leads, throughTarget_of_pointee pointer, known]
      rfl
    · intro same
      exact differs (Qualifier.pointerTo_inj.mp same)

/-- A mapped type keeps its host type unless it is overtaken. -/
theorem lookup_compose_of_not_overtaken {first second : Policy} (type : TypeExpr)
    (known : first.lookup type = some host) (kept : ¬ Overtaken first second type) :
    (first.compose second).lookup type = some host := by
  by_cases leads : first.PointsFirst type
  · rcases lookup_of_pointsFirst leads known with
      ⟨target, qualifier, inner, pointer, found, rfl⟩ | ⟨silent, behind⟩
    · have shorter := TypeExpr.length_pointee?_lt pointer
      have same := lookup_compose_of_not_overtaken target found
        (fun overtaken => kept (.deeper pointer leads overtaken))
      exact lookup_compose_of_target pointer leads same
    · cases asked : (first.compose second).throughTarget type with
      | none => exact lookup_compose_of_silent leads asked behind
      | some answer =>
        obtain ⟨⟨target, qualifier⟩, pointer, mapped⟩ := Option.bind_eq_some_iff.mp asked
        obtain ⟨inner, found, rfl⟩ := Option.map_eq_some_iff.mp mapped
        rw [throughTarget_of_pointee pointer, Option.map_eq_none_iff] at silent
        have same : host = qualifier.pointerTo inner := by
          by_contra differs
          exact kept (.here pointer leads silent known found differs)
        rw [same]
        exact lookup_compose_of_target pointer leads found
  · exact lookup_compose_of_not_pointsFirst second leads known
termination_by type.length

/-- Wherever a pointer rule comes first, the policy maps the pointer only if it maps the
target. -/
def IsSelfContained (policy : Policy) : Prop :=
  ∀ type target qualifier, type.pointee? = some (target, qualifier) →
    policy.PointsFirst type → policy.lookup target = none → policy.lookup type = none

theorem IsSelfContained.not_overtaken {first : Policy} (contained : first.IsSelfContained)
    (second : Policy) (type : TypeExpr) : ¬ Overtaken first second type := by
  intro overtaken
  induction overtaken with
  | here pointer leads unmapped known mapped differs =>
    rw [contained _ _ _ pointer leads unmapped] at known
    cases known
  | deeper pointer leads inner ih => exact ih

theorem lookup_compose_of_same {first second : Policy}
    (same : (first.compose second).throughTarget type = first.throughTarget type) :
    (first.compose second).lookup type =
      (first.lookup type).or
        (second.rules.findSome? (Rule.answer type (first.throughTarget type))) := by
  rw [lookup_compose, same, ← lookup_cases]

theorem throughTarget_congr (one other : Policy) (type : TypeExpr)
    (same : ∀ target, target.length < type.length → one.lookup target = other.lookup target) :
    one.throughTarget type = other.throughTarget type := by
  rw [throughTarget, throughTarget]
  cases pointer : type.pointee? with
  | none => rfl
  | some pair =>
    obtain ⟨target, qualifier⟩ := pair
    have shorter := TypeExpr.length_pointee?_lt pointer
    simp only [Option.bind_some, same target shorter]

theorem lookup_compose_exact_of_shorter (first : Policy) (target : TypeExpr) (host : HostType)
    (type : TypeExpr) (shorter : type.length < target.length) :
    (first.compose ⟨[.exact target host]⟩).lookup type = first.lookup type := by
  have same := throughTarget_congr (first.compose ⟨[.exact target host]⟩) first type
    fun inner less =>
      lookup_compose_exact_of_shorter first target host inner (Nat.lt_trans less shorter)
  have other : target ≠ type := by
    rintro rfl
    exact absurd shorter (Nat.lt_irrefl _)
  rw [lookup_compose_of_same same]
  simp [Rule.answer, other]
termination_by type.length

theorem lookup_compose_exact {first : Policy} (host : HostType)
    (unmapped : first.lookup target = none) :
    (first.compose ⟨[.exact target host]⟩).lookup target = some host := by
  have same := throughTarget_congr _ first target
    (lookup_compose_exact_of_shorter first target host)
  rw [lookup_compose_of_same same, unmapped]
  simp [Rule.answer]

/-- A policy that maps a pointer behind its pointer rule is overtaken by an exact rule for the
target. -/
theorem exists_overtaken {first : Policy} (loose : ¬ first.IsSelfContained) :
    ∃ second type, Overtaken first second type := by
  simp only [IsSelfContained, not_forall] at loose
  obtain ⟨type, target, qualifier, pointer, leads, unmapped, mapped⟩ := loose
  obtain ⟨own, known⟩ := Option.ne_none_iff_exists'.mp mapped
  obtain ⟨host, differs⟩ : ∃ host, own ≠ qualifier.pointerTo host := by
    by_contra same
    simp only [not_exists, not_not] at same
    have equal := Qualifier.pointerTo_inj.mp ((same ⟨"a"⟩).symm.trans (same ⟨"b"⟩))
    simp at equal
  exact ⟨_, type, .here pointer leads unmapped known (lookup_compose_exact host unmapped) differs⟩

/-- Pointer rules stand behind all others. -/
def PointsLast (policy : Policy) : Prop :=
  policy.rules.Pairwise fun rule later => rule = .rawPointer → later = .rawPointer

instance (policy : Policy) : Decidable policy.PointsLast :=
  inferInstanceAs (Decidable (List.Pairwise _ _))

theorem PointsLast.named_eq_none {policy : Policy} (last : policy.PointsLast)
    (leads : policy.PointsFirst type) : policy.named type = none := by
  obtain ⟨rules⟩ := policy
  simp only [PointsLast, PointsFirst, named] at last leads ⊢
  induction rules with
  | nil => simp at leads
  | cons rule rest ih =>
    obtain ⟨behind, later⟩ := List.pairwise_cons.mp last
    cases rule with
    | exact known host =>
      by_cases same : known = type
      · simp [Rule.concerns, same] at leads
      · simp only [Rule.concerns, same, List.find?_cons] at leads
        simp only [List.findSome?_cons, Rule.answer, if_neg same]
        exact ih later leads
    | rawPointer =>
      refine List.findSome?_eq_none_iff.mpr fun other member => ?_
      rcases List.mem_cons.mp member with rfl | member
      · rfl
      · rw [behind other member rfl, Rule.answer]

theorem PointsLast.isSelfContained {policy : Policy} (last : policy.PointsLast) :
    policy.IsSelfContained := by
  intro type target qualifier pointer leads unmapped
  rw [lookup_cases, if_pos leads, throughTarget_of_pointee pointer, unmapped,
    last.named_eq_none leads]
  rfl

theorem pointsLast_ofPairs_compose_basic (pairs : List (String × String)) :
    ((ofPairs pairs).compose basic).PointsLast := by
  have exact (rule : Rule) (member : rule ∈ (ofPairs pairs).rules) : rule ≠ .rawPointer := by
    obtain ⟨pair, -, rfl⟩ := List.mem_map.mp member
    simp
  refine List.pairwise_append.mpr ⟨?_, ?_, ?_⟩
  · apply List.pairwise_of_forall_mem_list
    intro rule member later _ pointer
    exact absurd pointer (exact rule member)
  · show basic.PointsLast
    decide +kernel
  · intro rule member later _ pointer
    exact absurd pointer (exact rule member)

/-- A second policy leaves no mapped type unmapped, and it changes the host type of exactly those
types that are overtaken. The policies that no second one can change are the self-contained ones,
and of these are all whose pointer rules come last. -/
theorem compose_left_biased_iff (first second : Policy) :
    (∀ type host, first.lookup type = some host →
      (∃ answer, (first.compose second).lookup type = some answer) ∧
      ((first.compose second).lookup type = some host ↔ ¬ Overtaken first second type)) ∧
    ((∀ other type host, first.lookup type = some host →
      (first.compose other).lookup type = some host) ↔ first.IsSelfContained) ∧
    (first.PointsLast → first.IsSelfContained) := by
  refine ⟨?_, ?_, PointsLast.isSelfContained⟩
  · intro type host known
    refine ⟨isSome_lookup_compose second type known, ?_, ?_⟩
    · intro kept overtaken
      obtain ⟨own, other, before, after, differs⟩ := overtaken.changed
      rw [known] at before
      rw [kept] at after
      exact differs (Option.some.inj (before.symm.trans after))
    · exact lookup_compose_of_not_overtaken type known
  · constructor
    · intro kept
      by_contra loose
      obtain ⟨other, type, overtaken⟩ := exists_overtaken loose
      obtain ⟨own, changed, before, after, differs⟩ := overtaken.changed
      rw [kept other type own before] at after
      exact differs (Option.some.inj after)
    · intro contained other type host known
      exact lookup_compose_of_not_overtaken type known (contained.not_overtaken other type)

/-- Names a pointer behind a pointer rule. -/
def handles : Policy := ⟨[.rawPointer, .exact (.parse "*const Point") ⟨"handle"⟩]⟩

/-- Names the target of that pointer. -/
def points : Policy := ofPairs [("Point", "struct point")]

/-- The named pointer, and a pointer to it, are other types as soon as their target is known. -/
theorem left_bias_broken_by_target :
    handles.lookup (.parse "*const Point") = some ⟨"handle"⟩ ∧
      (handles.compose points).lookup (.parse "*const Point") = some ⟨"const struct point*"⟩ ∧
      handles.lookup (.parse "*mut *const Point") = some ⟨"handle*"⟩ ∧
      (handles.compose points).lookup (.parse "*mut *const Point") =
        some ⟨"const struct point**"⟩ := by
  decide +kernel

/-- The theorem on a tower of pointers, over these policies and over a policy whose pointer rule
comes last. -/
theorem compose_left_biased_iff_tower :
    Overtaken handles points (.parse "*mut *const Point") ∧
      ((points.compose basic).compose handles).lookup (.parse "*mut *const Point") =
        some ⟨"const struct point**"⟩ := by
  constructor
  · obtain ⟨changes, -⟩ := compose_left_biased_iff handles points
    have known : handles.lookup (.parse "*mut *const Point") = some ⟨"handle*"⟩ := by
      decide +kernel
    by_contra kept
    have same := (changes _ _ known).2.mpr kept
    exact absurd same (by decide +kernel)
  · obtain ⟨-, contained, last⟩ := compose_left_biased_iff (points.compose basic) handles
    have behind := pointsLast_ofPairs_compose_basic [("Point", "struct point")]
    exact contained.mpr (last behind) handles _ _ (by decide +kernel)

end Policy

end FragmentBuild
