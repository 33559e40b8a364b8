import FragmentBuild.Proofs.CommandRuns
import FragmentBuild.Proofs.DistinctKeys
import FragmentBuild.Proofs.PointerTypes
import FragmentBuild.Proofs.PolicyComposition
import FragmentBuild.Proofs.SortedEntries

/-! The policy of a unit. Main statement: the table of types in a text decides, in whatever order it
is written, which host type a type has; looking a type up by a command and asking the collector of
the whole unit give the same answer. -/
namespace FragmentBuild

/-- The host types that a table of types gives. A type that the table spells has the host type of
the least key that spells it, by the order of bytes. A pointer that it does not spell points to what
its target has. What is left has a host type if it is primitive. -/
structure GivesHosts (table : List (String × String)) (host? : TypeExpr → Option HostType) :
    Prop where
  named : ∀ key host, (key, host) ∈ table →
    (∀ entry ∈ table, TypeExpr.parse entry.1 = .parse key → bytesOf key ≤ bytesOf entry.1) →
    host? (.parse key) = some ⟨host⟩
  pointer : ∀ type qualifier target, (∀ entry ∈ table, TypeExpr.parse entry.1 ≠ type) →
    type.IsPointer qualifier target → host? type = (host? target).map qualifier.pointerTo
  plain : ∀ type, (∀ entry ∈ table, TypeExpr.parse entry.1 ≠ type) →
    (∀ qualifier target, ¬ type.IsPointer qualifier target) →
    host? type = (Policy.primitives.lookup type.text).map HostType.mk

/-- Among entries in the order of their keys the first match is the one with the least key. -/
theorem Ascends.find?_eq_some_iff {entries : List (String × α)} (ascends : Ascends entries)
    {holds : String × α → Bool} {entry : String × α} :
    entries.find? holds = some entry ↔
      entry ∈ entries ∧ holds entry = true ∧
        ∀ other ∈ entries, holds other = true → entry.1 ≤ other.1 := by
  induction entries with
  | nil => simp
  | cons first rest ih =>
    obtain ⟨least, later⟩ := List.pairwise_cons.mp ascends
    by_cases matching : holds first = true
    · rw [List.find?_cons_of_pos matching]
      constructor
      · intro found
        obtain rfl := Option.some.inj found
        refine ⟨List.mem_cons_self, matching, fun other member _ => ?_⟩
        rcases List.mem_cons.mp member with rfl | member
        · exact le_refl _
        · exact le_of_lt (least other member)
      · rintro ⟨member, -, below⟩
        rcases List.mem_cons.mp member with rfl | member
        · rfl
        · have above := below first List.mem_cons_self matching
          exact absurd (least entry member) (not_lt.mpr above)
    · rw [List.find?_cons_of_neg matching, ih later]
      constructor
      · rintro ⟨member, found, below⟩
        refine ⟨List.mem_cons_of_mem _ member, found, fun other among other_holds => ?_⟩
        rcases List.mem_cons.mp among with rfl | among
        · exact absurd other_holds matching
        · exact below other among other_holds
      · rintro ⟨member, found, below⟩
        refine ⟨?_, found, fun other among => below other (List.mem_cons_of_mem _ among)⟩
        rcases List.mem_cons.mp member with rfl | member
        · exact absurd found matching
        · exact member

namespace Policy

/-- The entry whose key spells a type, if there is one. -/
def pairFor? (pairs : List (String × String)) (type : TypeExpr) : Option (String × String) :=
  pairs.find? fun pair => TypeExpr.parse pair.1 = type

theorem findSome?_ofPairs (pairs : List (String × String)) (type : TypeExpr)
    (pointer : Option HostType) :
    (ofPairs pairs).rules.findSome? (Rule.answer type pointer) =
      (pairFor? pairs type).map fun pair => ⟨pair.2⟩ := by
  rw [ofPairs, pairFor?]
  induction pairs with
  | nil => rfl
  | cons pair rest ih =>
    rw [List.map_cons, List.findSome?_cons, List.find?_cons]
    by_cases same : TypeExpr.parse pair.1 = type
    · simp [Rule.answer, same]
    · simpa [Rule.answer, same] using ih

theorem lookup_ofPairs_compose_basic (pairs : List (String × String)) (type : TypeExpr) :
    ((ofPairs pairs).compose basic).lookup type =
      ((pairFor? pairs type).map fun pair => ⟨pair.2⟩).or
        (((pairFor? primitives type).map fun pair => ⟨pair.2⟩).or
          (((ofPairs pairs).compose basic).throughTarget type)) := by
  rw [lookup_eq, compose, basic, List.findSome?_append, List.findSome?_append,
    findSome?_ofPairs, findSome?_ofPairs]
  simp [Rule.answer]

theorem pairFor?_of_normal {pairs : List (String × String)}
    (normal : ∀ pair ∈ pairs, (TypeExpr.parse pair.1).text = pair.1) (type : TypeExpr) :
    ((pairFor? pairs type).map fun pair => (⟨pair.2⟩ : HostType)) =
      (pairs.lookup type.text).map HostType.mk := by
  rw [pairFor?]
  induction pairs with
  | nil => rfl
  | cons pair rest ih =>
    obtain ⟨own, others⟩ := List.forall_mem_cons.mp normal
    obtain ⟨key, host⟩ := pair
    rw [List.find?_cons, List.lookup_cons]
    by_cases here : type.text = key
    · have same : TypeExpr.parse key = type := here ▸ type.parse_text
      simp [here, same]
    · have apart : ¬ TypeExpr.parse key = type := by
        rintro rfl
        exact here own
      simpa [apart, beq_eq_false_iff_ne.mpr here] using ih others

theorem pairFor?_primitives (type : TypeExpr) :
    ((pairFor? primitives type).map fun pair => (⟨pair.2⟩ : HostType)) =
      (primitives.lookup type.text).map HostType.mk :=
  pairFor?_of_normal (by decide +kernel) type

theorem lookup_primitives_of_isPointer {type : TypeExpr}
    (pointer : type.IsPointer qualifier target) : primitives.lookup type.text = none := by
  have starless : primitives.all (fun pair => pair.1.toList.head? != some '*') = true := by
    decide +kernel
  have starred : type.text.toList.head? = some '*' := by
    obtain ⟨c, rest, -, spelled | ⟨spelled, -⟩⟩ := pointer <;> rw [spelled] <;> rfl
  rw [List.lookup_eq_none_iff]
  intro pair member
  have apart := List.all_eq_true.mp starless pair member
  apply bne_iff_ne.mpr
  intro same
  rw [← same, starred] at apart
  exact absurd apart (by simp)

theorem throughTarget_of_isPointer {policy : Policy} {type : TypeExpr}
    (pointer : type.IsPointer qualifier target) :
    policy.throughTarget type = (policy.lookup target).map qualifier.pointerTo :=
  throughTarget_of_pointee (TypeExpr.pointee?_eq_some_iff.mpr pointer)

theorem throughTarget_eq_none {policy : Policy} {type : TypeExpr}
    (none : ∀ qualifier target, ¬ type.IsPointer qualifier target) :
    policy.throughTarget type = .none := by
  rw [throughTarget]
  cases pointee : type.pointee? with
  | none => rfl
  | some pair => exact absurd (TypeExpr.pointee?_eq_some_iff.mp pointee) (none _ _)

theorem pairFor?_eq_none {pairs : List (String × String)} {type : TypeExpr}
    (unnamed : ∀ entry ∈ pairs, TypeExpr.parse entry.1 ≠ type) : pairFor? pairs type = none := by
  rw [pairFor?, List.find?_eq_none]
  intro entry member
  simpa using unnamed entry member

/-- The policy made of sorted entries gives what the entries give in any order. -/
theorem givesHosts_sortEntries {table : List (String × String)}
    (distinct : (table.map Prod.fst).Nodup) :
    GivesHosts table ((ofPairs (sortEntries table)).compose basic).lookup := by
  have same := sortEntries_perm distinct
  have ascends := ascends_sortEntries table
  have unsorted {type : TypeExpr} (unnamed : ∀ entry ∈ table, TypeExpr.parse entry.1 ≠ type) :
      pairFor? (sortEntries table) type = none :=
    pairFor?_eq_none fun entry member => unnamed entry (same.mem_iff.mp member)
  constructor
  · intro key host member least
    have found : pairFor? (sortEntries table) (.parse key) = some (key, host) := by
      rw [pairFor?, ascends.find?_eq_some_iff]
      refine ⟨same.mem_iff.mpr member, by simp, fun entry among spelled => ?_⟩
      exact bytesOf_le_iff.mp (least entry (same.mem_iff.mp among) (by simpa using spelled))
    rw [lookup_ofPairs_compose_basic, found]
    rfl
  · intro type qualifier target unnamed pointer
    rw [lookup_ofPairs_compose_basic, unsorted unnamed, pairFor?_primitives,
      lookup_primitives_of_isPointer pointer, throughTarget_of_isPointer pointer]
    rfl
  · intro type unnamed none
    rw [lookup_ofPairs_compose_basic, unsorted unnamed, pairFor?_primitives,
      throughTarget_eq_none none]
    simp

end Policy

namespace UnitDescription

/-- The table of types in a text, in the order in which it is written. -/
def typesIn? (text : String) : Option (List (String × String)) := do
  match (← Toml.parse? text).lookup "types" with
  | none => return []
  | some value => Datum.entries? Datum.text? value.datum

def policy (unit : UnitDescription) : Policy := unit.policy?.getD .basic

theorem policy_eq (unit : UnitDescription) :
    unit.policy = (Policy.ofPairs unit.types).compose .basic := by
  rw [policy, policy?]
  split
  · next none => rw [List.isEmpty_iff.mp none]; rfl
  · rfl

theorem field?_entryData {entries : List (String × Toml.Value)}
    (distinct : (entries.map Prod.fst).Nodup) (name : String) :
    Datum.field? (Toml.entryData entries) name =
      some ((entries.lookup name).map Toml.Value.datum) := by
  have others (rest : List (String × Toml.Value)) (absent : name ∉ rest.map Prod.fst) :
      (Toml.entryData rest).filter (·.1 == name) = [] := by
    rw [List.filter_eq_nil_iff]
    intro entry member named
    rw [← Toml.map_fst_entryData] at absent
    exact absent (List.mem_map.mpr ⟨entry, member, by simpa using named⟩)
  induction entries with
  | nil => rfl
  | cons entry rest ih =>
    obtain ⟨key, value⟩ := entry
    obtain ⟨absent, later⟩ := List.nodup_cons.mp distinct
    have inner := ih later
    rw [Datum.field?] at inner ⊢
    rw [Toml.entryData, List.lookup_cons, List.filter_cons]
    by_cases named : name = key
    · subst named
      simp [others rest absent]
    · simpa [beq_eq_false_iff_ne.mpr named, beq_eq_false_iff_ne.mpr (Ne.symm named)] using inner

theorem types_of_parse? {text : String} {unit : UnitDescription}
    (described : parse? text = some unit) :
    ∃ table, typesIn? text = some table ∧ (table.map Prod.fst).Nodup ∧
      unit.types = sortEntries table := by
  obtain ⟨datum, said, described⟩ := Option.bind_eq_some_iff.mp described
  obtain ⟨entries, parsed, rfl⟩ := Option.map_eq_some_iff.mp said
  have document := Toml.parse?_hasDistinctKeys parsed
  cases document with
  | table _ distinct within =>
    have fields (names : List String) :
        Datum.fields? Toml.format names (.record (Toml.entryData entries)) =
          some (names.map fun name => (entries.lookup name).map Toml.Value.datum) := by
      rw [Datum.fields?]
      induction names with
      | nil => rfl
      | cons name rest ih =>
        rw [List.mapM_cons, field?_entryData distinct, ih]
        rfl
    rw [ofDatum?, fields] at described
    obtain ⟨_, same, described⟩ := Option.bind_eq_some_iff.mp described
    obtain rfl := Option.some.inj same
    obtain ⟨_, -, described⟩ := Option.bind_eq_some_iff.mp described
    obtain ⟨_, -, described⟩ := Option.bind_eq_some_iff.mp described
    obtain ⟨table, read, described⟩ := Option.bind_eq_some_iff.mp described
    obtain ⟨_, -, described⟩ := Option.bind_eq_some_iff.mp described
    obtain ⟨_, -, described⟩ := Option.bind_eq_some_iff.mp described
    obtain rfl := Option.some.inj described
    replace read : Datum.orElse [] (Datum.entries? Datum.text?)
      ((entries.lookup "types").map Toml.Value.datum) = some table := read
    have shown : typesIn? text = match entries.lookup "types" with
        | none => some []
        | some value => Datum.entries? Datum.text? value.datum := by
      rw [typesIn?, parsed]
      rfl
    refine ⟨table, ?_, ?_, rfl⟩
    · rw [shown]
      cases found : entries.lookup "types" with
      | none => rwa [found] at read
      | some value => rwa [found] at read
    · cases found : entries.lookup "types" with
      | none =>
        rw [found] at read
        obtain rfl := Option.some.inj read
        exact List.nodup_nil
      | some value =>
        rw [found] at read
        exact (Toml.Keyed.lookup ⟨distinct, within⟩ found).entries? read

end UnitDescription

/-- The answer to a query for a type that has a host type, or none. -/
def answerTo (type : TypeExpr) : Option HostType → Except Failure Collector.Answer
  | some host => .ok (Collector.Answer.host host)
  | none => .error (.unmappedType type)

theorem Collector.answer_fed {start : Collector ρ} (new : start.collected = none)
    (basic : start.defaultPolicy = .basic) (unit : UnitDescription) :
    ∃ fed, start.afterAll unit.calls = (.ok (), fed) ∧
      ∀ type, fed.answer (.query type) = answerTo type (unit.policy.lookup type) := by
  refine ⟨_, start.afterAll_calls new unit, fun type => ?_⟩
  obtain ⟨added, calls, adds⟩ := unit.calls_eq
  rw [answer_query_recorded new, calls, policyInForce_policy start _ adds, basic,
    ← UnitDescription.policy]
  cases unit.policy.lookup type <;> rfl

/-- Looking a type up prints the host type that the policy of the unit gives, or nothing. -/
theorem World.attempt_lookup {world : World} {path : Path} {unit : UnitDescription}
    (described : world.described path = .ok unit) (settings : Settings) (type : TypeExpr) :
    ∃ events, world.attempt (FragmentBuild.lookup settings path type) =
      match unit.policy.lookup type with
      | some host => (.ok (), { world with events, printed := world.printed ++ (host.text ++ "\n") })
      | none => (.error (.failure (.unmappedType type)), { world with events }) := by
  obtain ⟨scratch, started⟩ := world.run_compilation_start settings .basic
  generalize begun : (⟨settings, .basic, ⟨settings, scratch⟩, []⟩ : Compilation) = compilation
    at started
  obtain ⟨opening, opened⟩ := world.attempt_openUnit compilation unit.name
  rw [if_neg (by rw [← begun]; simp)] at opened
  have new : (compilation.collectorOf unit.name).collected = none := rfl
  have basic : (compilation.collectorOf unit.name).defaultPolicy = .basic := by rw [← begun]; rfl
  obtain ⟨calling, called⟩ := ({ world with events := opening } : World).attempt_callAll
    { compilation with opened := compilation.opened ++ [unit.name] }
    (compilation.collectorOf unit.name) (unit.policy?.map Collector.Call.setPolicy).toList
  have accepted := Collector.afterAll_policy _ new unit.policy? (List.forall_mem_nil _)
  rw [List.append_nil] at accepted
  rw [accepted] at called
  rw [FragmentBuild.lookup, attempt_bind, attempt_loadUnit, described]
  dsimp only [Except.mapError]
  rw [attempt_bind, attempt_lift, started]
  dsimp only
  rw [attempt_bind, opened]
  dsimp only
  rw [attempt_bind, called]
  dsimp only [Except.mapError, Except.map]
  generalize held : (unit.policy?.map Collector.Call.setPolicy).toList.foldl Collector.after
    (compilation.collectorOf unit.name) = collector
  have asked : collector.answer (.query type) = answerTo type (unit.policy.lookup type) := by
    have inForce := Collector.policyInForce_policy (compilation.collectorOf unit.name)
      unit.policy? (List.forall_mem_nil _)
    rw [List.append_nil, basic, ← UnitDescription.policy] at inForce
    rw [← held, Collector.foldl_after new, Collector.answer_query_recorded new, inForce]
    cases unit.policy.lookup type <;> rfl
  obtain ⟨events, answered⟩ := ({ world with events := calling } : World).run_call
    { compilation with opened := compilation.opened ++ [unit.name] } collector (.query type)
  refine ⟨events, ?_⟩
  rw [attempt_bind, attempt_lift, answered, asked]
  dsimp only
  cases unit.policy.lookup type with
  | none => rfl
  | some host => exact attempt_print _ _

theorem UnitDescription.policy?_eq_of_perm {text other : String} {unit second : UnitDescription}
    (described : parse? text = some unit) (again : parse? other = some second)
    {table others : List (String × String)} (written : typesIn? text = some table)
    (reordered : typesIn? other = some others) (same : table.Perm others) :
    second.policy? = unit.policy? := by
  obtain ⟨own, read, distinct, sorted⟩ := types_of_parse? described
  obtain ⟨its, reads, -, sorts⟩ := types_of_parse? again
  obtain rfl := Option.some.inj (written.symm.trans read)
  obtain rfl := Option.some.inj (reordered.symm.trans reads)
  have types : second.types = unit.types := by
    rw [sorts, sorted, sortEntries_eq_of_perm same distinct]
  rw [policy?, policy?, types]

/-- The policy of a unit gives the host types that the table of types in its text gives, in whatever
order the table is written. A collector that was fed the whole unit answers every query by it, and
the command that looks a type up prints that answer, although it feeds its collector nothing but the
policy. -/
theorem unit_policies_agree (text : String) (unit : UnitDescription)
    (described : UnitDescription.parse? text = some unit) :
    ∃ table, UnitDescription.typesIn? text = some table ∧
      GivesHosts table unit.policy.lookup ∧
      (∀ collector : UnitCollector, collector.collected = none → collector.defaultPolicy = .basic →
        ∃ fed, collector.afterAll unit.calls = (.ok (), fed) ∧
          (∀ type, fed.answer (.query type) = answerTo type (unit.policy.lookup type)) ∧
          ∀ (world : World) (path : Path) (settings : Settings) (type : TypeExpr),
            world.machine.read path = .ok text.toUTF8 →
            ∃ events, world.attempt (lookup settings path type) =
              match fed.answer (.query type) with
              | .ok (.host host) =>
                (.ok (), { world with events, printed := world.printed ++ (host.text ++ "\n") })
              | .ok _ => (.ok (), { world with events })
              | .error failure => (.error (.failure failure), { world with events })) ∧
      ∀ other second, UnitDescription.parse? other = some second →
        ∀ others, UnitDescription.typesIn? other = some others → table.Perm others →
          second.policy? = unit.policy? := by
  obtain ⟨table, written, distinct, sorted⟩ := UnitDescription.types_of_parse? described
  refine ⟨table, written, ?_, ?_, ?_⟩
  · rw [unit.policy_eq, sorted]
    exact Policy.givesHosts_sortEntries distinct
  · intro collector new basic
    obtain ⟨fed, accepted, answers⟩ := Collector.answer_fed new basic unit
    refine ⟨fed, accepted, answers, ?_⟩
    intro world path settings type holds
    have loads : world.described path = .ok unit := by
      rw [World.described_of_read holds, parsed, described]
    obtain ⟨events, ended⟩ := World.attempt_lookup loads settings type
    refine ⟨events, ended.trans ?_⟩
    rw [answers]
    cases unit.policy.lookup type <;> rfl
  · intro other second again others reordered same
    exact UnitDescription.policy?_eq_of_perm described again written reordered same

namespace UnitDescription

/-- A unit whose table spells a pointer twice, and its target. -/
def respelled : String :=
  "name = \"u\"\n[types]\n\"*const Point\" = \"b\"\n\"* const Point\" = \"a\"\n" ++
    "Point = \"struct point\"\n"

/-- The same unit, whose table is written in another order. -/
def reordered : String :=
  "name = \"u\"\n[types]\nPoint = \"struct point\"\n\"* const Point\" = \"a\"\n" ++
    "\"*const Point\" = \"b\"\n"

def spelled : UnitDescription where
  name := "u"
  types := [("* const Point", "a"), ("*const Point", "b"), ("Point", "struct point")]
  fragments := []
  dependencies := []

end UnitDescription

/-- The spelling with the space in front is the least one, wherever it is written, and a pointer to
the pointer follows it. -/
theorem unit_policies_agree_respelled :
    UnitDescription.parse? UnitDescription.respelled = some .spelled ∧
      (∃ fed, Collector.telling.afterAll UnitDescription.spelled.calls = (.ok (), fed) ∧
        fed.answer (.query (.parse "*mut *const Point")) = .ok (.host ⟨"a*"⟩)) ∧
      ∀ second, UnitDescription.parse? UnitDescription.reordered = some second →
        second.policy? = UnitDescription.spelled.policy? := by
  have described : UnitDescription.parse? UnitDescription.respelled = some .spelled := by
    decide +kernel
  obtain ⟨table, written, gives, agree, reordered⟩ := unit_policies_agree _ _ described
  obtain rfl : table = [("*const Point", "b"), ("* const Point", "a"), ("Point", "struct point")] :=
    Option.some.inj (written.symm.trans (by decide +kernel))
  refine ⟨described, ?_, fun second again => ?_⟩
  · obtain ⟨fed, accepted, answers, -⟩ := agree Collector.telling rfl rfl
    have inner := gives.named "* const Point" "a" (by decide) (by decide +kernel)
    have outer := gives.pointer (.parse "*mut *const Point") .mutable (.parse "* const Point")
      (by decide +kernel)
      ⟨'*', "const Point".toList, by decide +kernel, .inr ⟨by decide +kernel, by decide +kernel⟩⟩
    refine ⟨fed, accepted, ?_⟩
    rw [answers, outer, inner]
    rfl
  · apply reordered _ second again
      [("Point", "struct point"), ("* const Point", "a"), ("*const Point", "b")]
    · decide +kernel
    · decide

end FragmentBuild
