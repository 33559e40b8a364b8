import FragmentBuild.Proofs.UnitPolicies

/-! Pointers to pointers, written with white space wherever it may stand. Main statement: where a
policy follows pointers, the host type of a tower of them is the host type of what the tower stands
on, with a word in front for each pointer that forbids changes and a star behind for each
pointer. -/
namespace FragmentBuild

theorem squeeze_blanks (last : Option Char) (gap : Bool) {blanks : List Char} (text : List Char)
    (blank : blanks.all isBlank = true) :
    squeeze last gap (blanks ++ text) = squeeze last (gap || !blanks.isEmpty) text := by
  induction blanks generalizing gap with
  | nil => simp
  | cons c rest ih =>
    rw [List.all_cons, Bool.and_eq_true] at blank
    rw [List.cons_append, squeeze, if_pos blank.1, ih true blank.2]
    simp

theorem squeeze_behind_tight (tight : isTight before = true) (gap : Bool) (text : List Char) :
    squeeze (some before) gap text = squeeze (some before) false text := by
  cases text with
  | nil => rfl
  | cons c rest =>
    cases blank : isBlank c with
    | true => rw [squeeze, squeeze, if_pos blank, if_pos blank]
    | false =>
      rw [squeeze_cons_solid _ _ _ blank, squeeze_cons_solid _ _ _ blank]
      simp [tight]

theorem squeeze_word {first : Char} {word : List Char} (last : Option Char) (text : List Char)
    (solid : (first :: word).all (!isBlank ·) = true) :
    squeeze last false (first :: word ++ text) =
      first :: word ++ squeeze ((first :: word).getLast?) false text := by
  induction word generalizing first last with
  | nil =>
    have here : isBlank first = false := by simpa using solid
    rw [List.singleton_append, squeeze_cons_solid _ _ _ here]
    rfl
  | cons next rest ih =>
    rw [List.all_cons, Bool.and_eq_true, Bool.not_eq_true'] at solid
    rw [List.cons_append, squeeze_cons_solid _ _ _ solid.1, ih _ solid.2]
    rfl

/-- Behind a gap a text is written as it is alone, with a space in front of it unless punctuation
stands on one of its sides. -/
theorem squeeze_behind_gap {before : Char} {text rest : List Char}
    (alone : squeeze none gap text = c :: rest) :
    squeeze (some before) true text =
      (if !isTight before && !isTight c then [' '] else []) ++ c :: rest := by
  induction text generalizing gap with
  | nil => cases alone
  | cons d more ih =>
    cases blank : isBlank d with
    | true =>
      rw [squeeze, if_pos blank] at alone ⊢
      exact ih alone
    | false =>
      rw [squeeze_cons_solid _ _ _ blank] at alone ⊢
      simp only [Option.any_none, Bool.and_false, Bool.false_and, Bool.false_eq_true, if_false,
        List.nil_append] at alone
      obtain ⟨rfl, rfl⟩ := List.cons.inj alone
      simp

theorem not_continuesWord_of_isTight (tight : isTight c = true) : continuesWord c = false := by
  have all : tightPunctuation.all (!continuesWord ·) = true := by decide +kernel
  have member : c ∈ tightPunctuation := by simpa [isTight] using tight
  simpa using List.all_eq_true.mp all c member

/-- How a pointer is written in front of its target: white space may stand around the star, and has
to stand behind the keyword. -/
structure PointerSpelling where
  qualifier : Qualifier
  front : List Char := []
  middle : List Char := []
  gap : List Char := [' ']
  blank : (front ++ middle ++ gap).all isBlank = true := by decide
  apart : gap ≠ [] := by decide

namespace PointerSpelling

def write (spelling : PointerSpelling) (target : List Char) : List Char :=
  spelling.front ++ '*' :: spelling.middle ++ spelling.qualifier.keyword ++ spelling.gap ++ target

theorem normalize_write (spelling : PointerSpelling) {target : List Char}
    (spelled : normalize target = c :: rest) :
    normalize (spelling.write target) =
      '*' :: spelling.qualifier.keyword ++ (if isTight c then [] else [' ']) ++ c :: rest := by
  obtain ⟨qualifier, front, middle, gap, blank, apart⟩ := spelling
  simp only [List.all_append, Bool.and_eq_true] at blank
  obtain ⟨⟨front_blank, middle_blank⟩, gap_blank⟩ := blank
  have behind : squeeze qualifier.keyword.getLast? false (gap ++ target) =
      (if isTight c then [] else [' ']) ++ c :: rest := by
    have last : qualifier.keyword.getLast? = some 't' := by cases qualifier <;> rfl
    have loose : isTight 't' = false := by decide
    have wide : (!gap.isEmpty) = true := by simpa using apart
    rw [squeeze_blanks _ _ _ gap_blank, last, wide, Bool.false_or, squeeze_behind_gap spelled,
      loose]
    cases isTight c <;> rfl
  have word : squeeze (some '*') false (qualifier.keyword ++ (gap ++ target)) =
      qualifier.keyword ++ squeeze qualifier.keyword.getLast? false (gap ++ target) := by
    cases qualifier with
    | immutable => exact squeeze_word _ _ (by decide +kernel)
    | mutable => exact squeeze_word _ _ (by decide +kernel)
  have star : isBlank '*' = false := by decide +kernel
  have tight : isTight '*' = true := by decide
  simp only [write, List.append_assoc, List.cons_append]
  rw [normalize, squeeze_blanks _ _ _ front_blank, squeeze_cons_solid _ _ _ star,
    squeeze_blanks _ _ _ middle_blank, squeeze_behind_tight tight, word, behind, tight]
  simp

/-- A written pointer is split into its qualifier and its target, however it is written. -/
theorem pointee?_parse_write (spelling : PointerSpelling) {target : List Char}
    (named : normalize target ≠ []) :
    (TypeExpr.parse (String.ofList (spelling.write target))).pointee? =
      some (.parse (String.ofList target), spelling.qualifier) := by
  obtain ⟨c, rest, spelled⟩ := List.exists_cons_of_ne_nil named
  refine TypeExpr.pointee?_eq_some_iff.mpr ⟨c, rest, by simpa using spelled, ?_⟩
  rw [TypeExpr.toList_parse, String.toList_ofList, spelling.normalize_write spelled]
  cases tight : isTight c with
  | true => exact .inr ⟨by simp, not_continuesWord_of_isTight tight⟩
  | false => exact .inl (by simp)

/-- A tower of pointers, outermost first, on top of a type. -/
def tower (spellings : List PointerSpelling) (text : List Char) : List Char :=
  spellings.foldr write text

@[simp] theorem tower_nil (text : List Char) : tower [] text = text := rfl

@[simp] theorem tower_cons (spelling : PointerSpelling) (rest : List PointerSpelling)
    (text : List Char) : tower (spelling :: rest) text = spelling.write (tower rest text) := rfl

theorem normalize_tower_ne_nil (spellings : List PointerSpelling)
    (named : normalize text ≠ []) : normalize (tower spellings text) ≠ [] := by
  cases spellings with
  | nil => exact named
  | cons spelling rest =>
    have below := normalize_tower_ne_nil rest named
    obtain ⟨c, more, spelled⟩ := List.exists_cons_of_ne_nil below
    rw [tower_cons, spelling.normalize_write spelled]
    exact List.cons_ne_nil _ _

/-- The host type of a tower on top of a type with the host type `host`. -/
def towerHost (qualifiers : List Qualifier) (host : HostType) : HostType :=
  ⟨String.join (List.replicate (qualifiers.count .immutable) "const ") ++ host.text ++
    String.join (List.replicate qualifiers.length "*")⟩

theorem join_replicate_comm (count : Nat) (text : String) :
    String.join (List.replicate count text) ++ text =
      text ++ String.join (List.replicate count text) := by
  induction count with
  | zero => simp [String.join]
  | succ count ih => rw [List.replicate_succ, String.join_cons, String.append_assoc, ih]

theorem pointerTo_towerHost (qualifier : Qualifier) (qualifiers : List Qualifier)
    (host : HostType) :
    qualifier.pointerTo (towerHost qualifiers host) = towerHost (qualifier :: qualifiers) host := by
  cases qualifier with
  | immutable =>
    simp only [Qualifier.pointerTo, towerHost, List.count_cons_self, List.length_cons,
      List.replicate_succ, String.join_cons, String.append_assoc, join_replicate_comm]
  | mutable =>
    have other : (Qualifier.mutable :: qualifiers).count .immutable =
        qualifiers.count .immutable := List.count_cons_of_ne (by decide)
    simp only [Qualifier.pointerTo, towerHost, other, List.length_cons, List.replicate_succ,
      String.join_cons, String.append_assoc, join_replicate_comm]

end PointerSpelling

namespace Policy

/-- The policy has a pointer rule, and no exact rule of it names a raw pointer. -/
structure FollowsPointers (policy : Policy) : Prop where
  rule : .rawPointer ∈ policy.rules
  plain : ∀ type host, .exact type host ∈ policy.rules → type.pointee? = none

theorem FollowsPointers.lookup_of_pointee {policy : Policy} (follows : policy.FollowsPointers)
    (pointer : type.pointee? = some (target, qualifier)) :
    policy.lookup type = (policy.lookup target).map qualifier.pointerTo := by
  have unnamed (known : TypeExpr) (host : HostType) (member : .exact known host ∈ policy.rules) :
      known ≠ type := by
    rintro rfl
    rw [follows.plain _ _ member] at pointer
    cases pointer
  have named : policy.named type = none := by
    refine List.findSome?_eq_none_iff.mpr fun rule member => ?_
    cases rule with
    | exact known host => exact if_neg (unnamed known host member)
    | rawPointer => rfl
  have leads : policy.PointsFirst type := by
    have concerned : (policy.rules.find? (Rule.concerns type)).isSome :=
      List.find?_isSome.mpr ⟨_, follows.rule, rfl⟩
    obtain ⟨first, found⟩ := Option.isSome_iff_exists.mp concerned
    cases first with
    | exact known host =>
      have same : known = type := by simpa [Rule.concerns] using List.find?_some found
      exact absurd same (unnamed known host (List.mem_of_find?_eq_some found))
    | rawPointer => exact found
  rw [lookup_cases, if_pos leads, named, throughTarget_of_pointee pointer, Option.or_none]

open PointerSpelling (tower tower_nil tower_cons towerHost)

theorem FollowsPointers.lookup_tower {policy : Policy} (follows : policy.FollowsPointers)
    (spellings : List PointerSpelling) {text : List Char} (named : normalize text ≠ []) :
    policy.lookup (.parse (String.ofList (tower spellings text))) =
      (policy.lookup (.parse (String.ofList text))).map
        (towerHost (spellings.map PointerSpelling.qualifier)) := by
  induction spellings with
  | nil =>
    have same : towerHost [] = id := by
      funext host
      simp [towerHost, String.join]
    rw [tower_nil, List.map_nil, same, Option.map_id, id]
  | cons spelling rest ih =>
    have pointer := spelling.pointee?_parse_write
      (PointerSpelling.normalize_tower_ne_nil rest named)
    have outer : spelling.qualifier.pointerTo ∘ towerHost (rest.map PointerSpelling.qualifier) =
        towerHost ((spelling :: rest).map PointerSpelling.qualifier) :=
      funext (PointerSpelling.pointerTo_towerHost _ _)
    rw [tower_cons, follows.lookup_of_pointee pointer, ih, Option.map_map, outer]

theorem followsPointers_ofPairs_compose_basic {pairs : List (String × String)}
    (plain : ∀ pair ∈ pairs, (TypeExpr.parse pair.1).pointee? = none) :
    ((ofPairs pairs).compose basic).FollowsPointers := by
  have primitive : primitives.all (fun pair => (TypeExpr.parse pair.1).pointee?.isNone) = true := by
    decide +kernel
  have exact {type : TypeExpr} {host : HostType} {table : List (String × String)}
      (plain : ∀ pair ∈ table, (TypeExpr.parse pair.1).pointee? = none)
      (member : .exact type host ∈ (ofPairs table).rules) : type.pointee? = none := by
    obtain ⟨pair, listed, same⟩ := List.mem_map.mp member
    obtain ⟨rfl, -⟩ := Rule.exact.inj same
    exact plain pair listed
  refine ⟨by simp [compose, basic], fun type host member => ?_⟩
  simp only [compose, basic, List.mem_append, List.mem_singleton, reduceCtorEq, or_false] at member
  rcases member with own | other
  · exact exact plain own
  · exact exact (fun pair listed => by simpa using List.all_eq_true.mp primitive pair listed) other

/-- In a policy that follows pointers a tower of pointers is mapped exactly if what it stands on is,
and its host type is spelled after that of the latter alone, however the tower is written. The basic
policy follows pointers, and so does the policy of every unit whose table names no pointer. -/
theorem pointer_towers_closed_form :
    (∀ policy : Policy, policy.FollowsPointers →
      ∀ text : String, (TypeExpr.parse text).text ≠ "" → ∀ spellings : List PointerSpelling,
        ((policy.lookup (.parse (String.ofList (tower spellings text.toList)))).isSome ↔
          (policy.lookup (.parse text)).isSome) ∧
        ∀ host, policy.lookup (.parse text) = some host →
          policy.lookup (.parse (String.ofList (tower spellings text.toList))) =
            some (towerHost (spellings.map PointerSpelling.qualifier) host)) ∧
    basic.FollowsPointers ∧
    ∀ unit : UnitDescription,
      (∀ entry ∈ unit.types, (TypeExpr.parse entry.1).pointee? = none) →
        unit.policy.FollowsPointers := by
  refine ⟨fun policy follows text named spellings => ?_,
    @followsPointers_ofPairs_compose_basic [] nofun, fun unit plain => ?_⟩
  · have some : normalize text.toList ≠ [] := by
      rw [← TypeExpr.toList_parse, ne_eq, String.toList_eq_nil_iff]
      exact named
    have closed := follows.lookup_tower spellings some
    rw [String.ofList_toList] at closed
    rw [closed]
    exact ⟨by rw [Option.isSome_map], fun host known => by rw [known, Option.map_some]⟩
  · rw [unit.policy_eq]
    exact followsPointers_ofPairs_compose_basic plain

/-- The theorem on the basic policy, for a tower of three pointers on a bracket, with a line break
in front, around and behind. -/
theorem pointer_towers_closed_form_void :
    let spellings : List PointerSpelling :=
      [{ qualifier := .immutable, front := ['\n'], middle := ['\t', ' '], gap := ['\n', ' '] },
        { qualifier := .mutable }, { qualifier := .immutable, gap := ['\u3000'] }]
    tower spellings "( )".toList = "\n*\t const\n *mut *const\u3000( )".toList ∧
      basic.lookup (.parse (String.ofList (tower spellings "( )".toList))) =
        some ⟨"const const void***"⟩ := by
  intro spellings
  obtain ⟨closed, follows, -⟩ := pointer_towers_closed_form
  have mapped := (closed basic follows "( )" (by decide +kernel) spellings).2 ⟨"void"⟩
    (by decide +kernel)
  refine ⟨by decide +kernel, mapped.trans ?_⟩
  decide +kernel

end Policy

end FragmentBuild
