import FragmentBuild.Proofs.PolicyComposition

/-! Rules that never decide. A pointer rule behind a pointer rule and an exact rule behind one for
the same type are only asked where the rule before them had no answer, and then they have none
either. This stays so if rules are left out, although a pointer rule asks the whole list. -/
namespace FragmentBuild

namespace Rule

/-- A rule of the same kind stands before: a pointer rule, or an exact rule for the same type,
whatever its host type. -/
def IsShadowed (earlier : List Rule) : Rule → Prop
  | .exact type _ => ∃ host, .exact type host ∈ earlier
  | .rawPointer => .rawPointer ∈ earlier

theorem isShadowed_of_mem (member : rule ∈ earlier) : IsShadowed earlier rule := by
  cases rule with
  | exact type host => exact ⟨host, member⟩
  | rawPointer => exact member

theorem IsShadowed.answer_eq_none {rule : Rule} (shadowed : rule.IsShadowed earlier)
    (silent : earlier.findSome? (answer type pointer) = none) :
    rule.answer type pointer = none := by
  rw [List.findSome?_eq_none_iff] at silent
  cases rule with
  | exact known host =>
    obtain ⟨other, member⟩ := shadowed
    have none := silent _ member
    by_cases same : known = type
    · simp [answer, same] at none
    · simp [answer, same]
  | rawPointer => exact silent _ shadowed

/-- The rules `kept` are the rules `rules` that follow the rules `earlier`, without some of those
that are shadowed. -/
inductive LeavesOut : (earlier rules kept : List Rule) → Prop
  | nil : LeavesOut earlier [] []
  | keep : LeavesOut (earlier ++ [rule]) rules kept →
      LeavesOut earlier (rule :: rules) (rule :: kept)
  | drop : rule.IsShadowed earlier → LeavesOut (earlier ++ [rule]) rules kept →
      LeavesOut earlier (rule :: rules) kept

theorem LeavesOut.refl (earlier rules : List Rule) : LeavesOut earlier rules rules := by
  induction rules generalizing earlier with
  | nil => exact .nil
  | cons rule rest ih => exact .keep (ih _)

theorem LeavesOut.prepend {front : List Rule}
    (leavesOut : LeavesOut (earlier ++ front) rules kept) :
    LeavesOut earlier (front ++ rules) (front ++ kept) := by
  induction front generalizing earlier with
  | nil => rwa [List.append_nil] at leavesOut
  | cons rule rest ih => exact .keep (ih (by rwa [List.append_assoc]))

theorem LeavesOut.all (shadowed : ∀ rule ∈ rules, IsShadowed earlier rule) :
    LeavesOut earlier rules [] := by
  induction rules generalizing earlier with
  | nil => exact .nil
  | cons rule rest ih =>
    refine .drop (shadowed rule List.mem_cons_self) (ih fun other member => ?_)
    have before := shadowed other (List.mem_cons_of_mem _ member)
    cases other with
    | exact type host => exact before.imp fun _ => List.mem_append_left _
    | rawPointer => exact List.mem_append_left _ before

theorem LeavesOut.findSome?_answer (leavesOut : LeavesOut earlier rules kept)
    (silent : earlier.findSome? (answer type pointer) = none) :
    kept.findSome? (answer type pointer) = rules.findSome? (answer type pointer) := by
  induction leavesOut with
  | nil => rfl
  | @keep _ rule _ _ _ ih =>
    rw [List.findSome?_cons, List.findSome?_cons]
    cases own : rule.answer type pointer with
    | some host => rfl
    | none => exact ih (by simp [silent, own])
  | drop shadowed _ ih =>
    have own := shadowed.answer_eq_none silent
    rw [List.findSome?_cons, own]
    exact ih (by simp [silent, own])

end Rule

namespace Policy

open Rule (LeavesOut)

theorem lookup_of_leavesOut {all kept : List Rule} (leavesOut : LeavesOut [] all kept)
    (type : TypeExpr) : lookup ⟨kept⟩ type = lookup ⟨all⟩ type := by
  have targets : throughTarget ⟨kept⟩ type = throughTarget ⟨all⟩ type :=
    throughTarget_congr _ _ type fun target shorter => lookup_of_leavesOut leavesOut target
  rw [lookup_eq, lookup_eq, targets]
  exact leavesOut.findSome?_answer rfl
termination_by type.length

theorem lookup_compose_of_subset {first second : Policy} (within : second.rules ⊆ first.rules)
    (type : TypeExpr) : (first.compose second).lookup type = first.lookup type := by
  have leavesOut : LeavesOut [] (first.rules ++ second.rules) (first.rules ++ []) :=
    LeavesOut.prepend (.all fun rule member => Rule.isShadowed_of_mem (within member))
  rw [List.append_nil] at leavesOut
  exact (lookup_of_leavesOut leavesOut type).symm

/-- Shadowed rules can be left out, one of them or any number at once, and nobody notices. So a
policy can be asked a second time behind itself, or behind itself and another one. -/
theorem shadowed_rules_are_dead :
    (∀ all kept, LeavesOut [] all kept → ∀ type, lookup ⟨kept⟩ type = lookup ⟨all⟩ type) ∧
    (∀ before rule after, Rule.IsShadowed before rule →
      ∀ type, lookup ⟨before ++ after⟩ type = lookup ⟨before ++ rule :: after⟩ type) ∧
    (∀ first : Policy, ∀ type, (first.compose first).lookup type = first.lookup type) ∧
    (∀ first second : Policy, ∀ type,
      ((first.compose second).compose first).lookup type =
        (first.compose second).lookup type) := by
  refine ⟨fun all kept => lookup_of_leavesOut, ?_, ?_, ?_⟩
  · intro before rule after shadowed
    have leavesOut : LeavesOut [] (before ++ rule :: after) (before ++ after) :=
      LeavesOut.prepend (.drop shadowed (.refl _ _))
    exact lookup_of_leavesOut leavesOut
  · intro first
    exact lookup_compose_of_subset (List.Subset.refl _)
  · intro first second
    exact lookup_compose_of_subset (List.subset_append_left _ _)

/-- The theorem on a tower of pointers, with a shadowed rule of each kind. A rule that is not
shadowed is noticed: the last one names a pointer to a type that no other rule maps. -/
theorem shadowed_rules_are_dead_tower :
    let all : List Rule := [.rawPointer, .exact (.parse "Point") ⟨"struct point"⟩, .rawPointer,
      .exact (.parse "Point") ⟨"point_t"⟩, .exact (.parse "*const Handle") ⟨"handle"⟩]
    let kept : List Rule := [.rawPointer, .exact (.parse "Point") ⟨"struct point"⟩,
      .exact (.parse "*const Handle") ⟨"handle"⟩]
    LeavesOut [] all kept ∧
      lookup ⟨kept⟩ (.parse "*mut *const Point") = lookup ⟨all⟩ (.parse "*mut *const Point") ∧
      lookup ⟨kept⟩ (.parse "*mut *const Point") = some ⟨"const struct point**"⟩ ∧
      lookup ⟨kept⟩ (.parse "*mut *const Handle") = lookup ⟨all⟩ (.parse "*mut *const Handle") ∧
      lookup ⟨kept⟩ (.parse "*mut *const Handle") = some ⟨"handle*"⟩ := by
  intro all kept
  have leavesOut : LeavesOut [] all kept := by
    refine .keep (.keep (.drop ?_ (.drop ?_ (.keep .nil))))
    · exact List.mem_cons_self
    · exact ⟨⟨"struct point"⟩, by simp⟩
  obtain ⟨dead, -⟩ := shadowed_rules_are_dead
  exact ⟨leavesOut, dead _ _ leavesOut _, by decide +kernel, dead _ _ leavesOut _,
    by decide +kernel⟩

end Policy

end FragmentBuild
