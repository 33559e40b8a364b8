import FragmentBuild.Proofs.PathSpellings
import FragmentBuild.Proofs.ShownSources
import Mathlib.Data.List.Nodup

/-! A link plan as an ordered set. Main statement: of the paths that are registered it holds those
that no earlier one is the same as, in their order and as they were spelled. -/
namespace FragmentBuild

namespace Path

def isNew (paths : List Path) (entry : Path × Nat) : Bool :=
  !(paths.take entry.2).any (·.same entry.1)

theorem pairwise_firsts (paths : List Path) :
    (firsts paths).Pairwise (fun path other => path.same other = false) := by
  induction paths with
  | nil => exact .nil
  | cons first rest ih =>
    refine List.Pairwise.cons (fun path member => ?_) (ih.filter _)
    simpa using (List.mem_filter.mp member).2

theorem mem_of_mem_firsts (member : path ∈ firsts paths) : path ∈ paths := by
  induction paths with
  | nil => cases member
  | cons first rest ih =>
    rcases List.mem_cons.mp member with rfl | later
    · exact List.mem_cons_self
    · exact List.mem_cons_of_mem _ (ih (List.mem_filter.mp later).1)

theorem exists_same_of_mem (member : path ∈ paths) :
    ∃ stored ∈ firsts paths, stored.same path = true := by
  induction paths with
  | nil => cases member
  | cons first rest ih =>
    by_cases again : first.same path = true
    · exact ⟨first, List.mem_cons_self, again⟩
    · rcases List.mem_cons.mp member with rfl | later
      · exact absurd (same_iff.mpr rfl) again
      · obtain ⟨stored, kept, same⟩ := ih later
        have other : first.same stored = false := by
          rw [Bool.eq_false_iff]
          exact fun taken => again (same_iff.mpr ((same_iff.mp taken).trans (same_iff.mp same)))
        exact ⟨stored, List.mem_cons_of_mem _ (List.mem_filter.mpr ⟨kept, by simp [other]⟩), same⟩

theorem any_same_firsts (paths : List Path) (path : Path) :
    (firsts paths).any (·.same path) = paths.any (·.same path) := by
  rw [Bool.eq_iff_iff, List.any_eq_true, List.any_eq_true]
  constructor
  · rintro ⟨stored, kept, same⟩
    exact ⟨stored, mem_of_mem_firsts kept, same⟩
  · rintro ⟨other, member, same⟩
    obtain ⟨stored, kept, alike⟩ := exists_same_of_mem member
    exact ⟨stored, kept, same_iff.mpr ((same_iff.mp alike).trans (same_iff.mp same))⟩

theorem firsts_eq_filter (paths : List Path) :
    firsts paths = (paths.zipIdx.filter (isNew paths)).map Prod.fst := by
  induction paths using List.reverseRecOn with
  | nil => rfl
  | append_singleton paths path ih =>
    have before : paths.zipIdx.filter (isNew (paths ++ [path])) =
        paths.zipIdx.filter (isNew paths) := by
      refine List.filter_congr fun entry member => ?_
      have within : entry.2 < paths.length := by
        simpa using (List.mem_zipIdx member).2.1
      rw [isNew, isNew, List.take_append_of_le_length within.le]
    have last : isNew (paths ++ [path]) (path, paths.length) = !paths.any (·.same path) := by
      rw [isNew, List.take_left]
    rw [firsts_append, any_same_firsts, List.zipIdx_append, List.filter_append, List.map_append,
      before, ← ih, Nat.zero_add, List.zipIdx_singleton]
    cases known : paths.any (·.same path) with
    | true => simp [last, known]
    | false => simp [last, known]

theorem nodup_components_firsts (paths : List Path) : ((firsts paths).map components).Nodup := by
  refine List.pairwise_map.mpr ((pairwise_firsts paths).imp fun {path other} apart same => ?_)
  rw [same_iff.mpr same] at apart
  cases apart

theorem existsUnique_same_of_mem (member : path ∈ paths) :
    ∃! stored, stored ∈ firsts paths ∧ stored.same path = true := by
  obtain ⟨stored, kept, same⟩ := exists_same_of_mem member
  refine ⟨stored, ⟨kept, same⟩, ?_⟩
  rintro other ⟨kept', same'⟩
  exact List.inj_on_of_nodup_map (nodup_components_firsts paths) kept' kept
    ((same_iff.mp same').trans (same_iff.mp same).symm)

theorem mem_components_firsts :
    named ∈ (firsts paths).map components ↔ named ∈ paths.map components := by
  rw [List.mem_map, List.mem_map]
  constructor
  · rintro ⟨path, kept, rfl⟩
    exact ⟨path, mem_of_mem_firsts kept, rfl⟩
  · rintro ⟨path, member, rfl⟩
    obtain ⟨stored, kept, same⟩ := exists_same_of_mem member
    exact ⟨stored, kept, same_iff.mp same⟩

/-- Which paths are kept, up to spelling, does not depend on the order of the list. -/
theorem perm_components_firsts (reordered : paths.Perm others) :
    ((firsts paths).map components).Perm ((firsts others).map components) := by
  refine (List.perm_ext_iff_of_nodup (nodup_components_firsts _) (nodup_components_firsts _)).mpr
    fun named => ?_
  rw [mem_components_firsts, mem_components_firsts]
  exact (reordered.map components).mem_iff

end Path

namespace LinkPlan

/-- The plan that some paths make. -/
def ofPaths (paths : List Path) : LinkPlan := paths.foldl register .empty

theorem ofPaths_append (front back : List Path) :
    ofPaths (front ++ back) = back.foldl register (ofPaths front) := List.foldl_append

theorem isEmpty_ofPaths (paths : List Path) : (ofPaths paths).isEmpty = paths.isEmpty := by
  rcases List.eq_nil_or_concat paths with rfl | ⟨front, last, rfl⟩
  · rfl
  · rw [List.concat_eq_append, ofPaths_append, List.foldl_cons, List.foldl_nil, isEmpty_register]
    simp

theorem register_again (member : path ∈ paths) (same : path.same again = true) :
    (ofPaths paths).register again = ofPaths paths := by
  obtain ⟨stored, kept, alike⟩ := Path.exists_same_of_mem member
  refine if_pos (List.any_eq_true.mpr ⟨stored, ?_, ?_⟩)
  · rw [ofPaths, objects_foldl_register]
    exact kept
  · exact Path.same_iff.mpr ((Path.same_iff.mp alike).trans (Path.same_iff.mp same))

theorem ofPaths_again (front middle back : List Path) (same : path.same again = true) :
    ofPaths (front ++ path :: middle ++ again :: back) =
      ofPaths (front ++ path :: middle ++ back) := by
  have known : path ∈ front ++ path :: middle := by simp
  rw [ofPaths_append, List.foldl_cons, register_again known same, ← ofPaths_append]

/-- Paths are the same exactly if they are spelled alike. A plan holds no path twice; it holds the
paths that no earlier one is the same as, in order and as they were spelled; each path that was
registered is the same as exactly one of them, and as they are shown they are the arguments of the
linker. A path that is registered again changes nothing, and the order of the paths changes the
order of the plan only. -/
theorem holds_new_paths_once :
    (∀ path other : Path,
      path.same other = true ↔ SpelledAlike path.text.toList other.text.toList) ∧
    (∀ paths : List Path,
      (ofPaths paths).objects.Pairwise (fun path other => path.same other = false) ∧
      (ofPaths paths).objects = (paths.zipIdx.filter (Path.isNew paths)).map Prod.fst ∧
      (∀ path ∈ paths, ∃! stored, stored ∈ (ofPaths paths).objects ∧ stored.same path = true) ∧
      (ofPaths paths).arguments = (ofPaths paths).objects.map Path.display ∧
      (ofPaths paths).isEmpty = paths.isEmpty) ∧
    (∀ (front middle back : List Path) (path again : Path), path.same again = true →
      ofPaths (front ++ path :: middle ++ again :: back) =
        ofPaths (front ++ path :: middle ++ back)) ∧
    ∀ paths others : List Path, paths.Perm others →
      ((ofPaths paths).objects.map Path.components).Perm
        ((ofPaths others).objects.map Path.components) := by
  refine ⟨Path.same_iff_spelledAlike, fun paths => ?_,
    fun front middle back path again => ofPaths_again front middle back, fun paths others => ?_⟩
  · rw [ofPaths, objects_foldl_register]
    refine ⟨Path.pairwise_firsts paths, Path.firsts_eq_filter paths,
      fun path => Path.existsUnique_same_of_mem, ?_, isEmpty_ofPaths paths⟩
    rw [arguments, objects_foldl_register]
  · rw [ofPaths, ofPaths, objects_foldl_register, objects_foldl_register]
    exact Path.perm_components_firsts

/-- Five registrations of three paths: a dot in front and a step up are told apart, a slash at the
end and a dot in the middle are not. -/
theorem holds_new_paths_once_spellings :
    let paths : List Path := [⟨"b//c"⟩, ⟨"./b/c"⟩, ⟨"b/./c/"⟩, ⟨"b/../b/c"⟩, ⟨"./b//c"⟩]
    (∃! stored, stored ∈ (ofPaths paths).objects ∧ stored.same ⟨"b/./c/"⟩ = true) ∧
      (ofPaths paths).objects = [⟨"b//c"⟩, ⟨"./b/c"⟩, ⟨"b/../b/c"⟩] ∧
      ofPaths paths = ofPaths [⟨"b//c"⟩, ⟨"./b/c"⟩, ⟨"b/../b/c"⟩, ⟨"./b//c"⟩] ∧
      ((ofPaths paths).objects.map Path.components).Perm
        ((ofPaths paths.reverse).objects.map Path.components) := by
  intro paths
  obtain ⟨-, plan, again, reordered⟩ := holds_new_paths_once
  obtain ⟨-, new, unique, -⟩ := plan paths
  exact ⟨unique _ (by decide), new.trans (by decide +kernel),
    again [] [⟨"./b/c"⟩] _ ⟨"b//c"⟩ ⟨"b/./c/"⟩ (by decide +kernel),
    reordered _ _ (List.reverse_perm _).symm⟩

end LinkPlan

end FragmentBuild
