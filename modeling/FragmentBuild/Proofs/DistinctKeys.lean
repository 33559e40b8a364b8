import FragmentBuild.Toml.Datum
import Mathlib.Data.List.Nodup

/-! Keys of TOML documents. Main statement: wherever a document that can be read has a table, no key
occurs twice in it. A table grows by replacing the value of a key it has or by a key it does not
have, and only values that were read before go into it. -/
namespace FragmentBuild.Toml

/-- No key occurs twice, and all values have a property. -/
structure Keyed (holds : α → Prop) (entries : List (String × α)) : Prop where
  distinct : (entries.map Prod.fst).Nodup
  values : ∀ entry ∈ entries, holds entry.2

inductive Value.HasDistinctKeys : Value → Prop where
  | string (text : String) : HasDistinctKeys (.string text)
  | integer (number : Int64) : HasDistinctKeys (.integer number)
  | float (number : Binary64) : HasDistinctKeys (.float number)
  | boolean (value : Bool) : HasDistinctKeys (.boolean value)
  | moment (text : String) : HasDistinctKeys (.moment text)
  | array (items : List Value) (within : ∀ item ∈ items, HasDistinctKeys item) :
      HasDistinctKeys (.array items)
  | table (entries : List (String × Value)) (distinct : (entries.map Prod.fst).Nodup)
      (within : ∀ entry ∈ entries, HasDistinctKeys entry.2) : HasDistinctKeys (.table entries)

inductive Node.HasDistinctKeys : Node → Prop where
  | leaf (value : Value) (within : value.HasDistinctKeys) : HasDistinctKeys (.leaf value)
  | table (origin : Origin) (entries : List (String × Node))
      (distinct : (entries.map Prod.fst).Nodup)
      (within : ∀ entry ∈ entries, HasDistinctKeys entry.2) :
      HasDistinctKeys (.table origin entries)
  | tables (items : List (List (String × Node)))
      (distinct : ∀ item ∈ items, (item.map Prod.fst).Nodup)
      (within : ∀ item ∈ items, ∀ entry ∈ item, HasDistinctKeys entry.2) :
      HasDistinctKeys (.tables items)

namespace Keyed

theorem nil (holds : α → Prop) : Keyed holds [] :=
  ⟨List.nodup_nil, List.forall_mem_nil _⟩

theorem lookup {holds : α → Prop} {entries : List (String × α)} (keyed : Keyed holds entries)
    (found : entries.lookup key = some value) : holds value := by
  obtain ⟨before, after, rfl, -⟩ := List.lookup_eq_some_iff.mp found
  exact keyed.values (key, value) (by simp)

theorem append_new {holds : α → Prop} {entries : List (String × α)} (keyed : Keyed holds entries)
    (new : (entries.lookup key).isNone) (good : holds value) :
    Keyed holds (entries ++ [(key, value)]) := by
  have fresh : key ∉ entries.map Prod.fst := by
    intro member
    obtain ⟨entry, within, named⟩ := List.mem_map.mp member
    have differs := List.lookup_eq_none_iff.mp (Option.isNone_iff_eq_none.mp new) entry within
    simp [named] at differs
  constructor
  · rw [List.map_append, List.nodup_append]
    refine ⟨keyed.distinct, List.nodup_singleton _, ?_⟩
    rintro one member other last rfl
    obtain rfl := List.mem_singleton.mp last
    exact fresh member
  · intro entry member
    rcases List.mem_append.mp member with member | member
    · exact keyed.values entry member
    · obtain rfl := List.mem_singleton.mp member
      exact good

theorem map_fst_setEntry (key : String) (value : α) (entries : List (String × α)) (name : String)
    (member : name ∈ (setEntry key value entries).map Prod.fst) :
    name = key ∨ name ∈ entries.map Prod.fst := by
  induction entries with
  | nil => exact .inl (List.mem_singleton.mp member)
  | cons first rest ih =>
    rw [setEntry] at member
    split at member
    · next same =>
      subst same
      exact .inr member
    · rcases List.mem_cons.mp member with rfl | later
      · exact .inr List.mem_cons_self
      · exact (ih later).imp_right (List.mem_cons_of_mem first.1)

theorem setEntry {holds : α → Prop} {entries : List (String × α)} (keyed : Keyed holds entries)
    (key : String) (good : holds value) : Keyed holds (setEntry key value entries) := by
  induction entries with
  | nil => exact ⟨List.nodup_singleton _, by simpa [FragmentBuild.setEntry] using good⟩
  | cons first rest ih =>
    obtain ⟨distinct, values⟩ := keyed
    obtain ⟨apart, later⟩ := List.nodup_cons.mp distinct
    obtain ⟨own, others⟩ := List.forall_mem_cons.mp values
    rw [FragmentBuild.setEntry]
    split
    · next same =>
      subst same
      exact ⟨distinct, List.forall_mem_cons.mpr ⟨good, others⟩⟩
    · next differs =>
      have tail := ih ⟨later, others⟩
      refine ⟨List.nodup_cons.mpr ⟨fun member => ?_, tail.distinct⟩,
        List.forall_mem_cons.mpr ⟨own, tail.values⟩⟩
      rcases map_fst_setEntry key value rest first.1 member with same | member
      · exact differs same
      · exact apart member

end Keyed

abbrev Sound (entries : List (String × Node)) : Prop := Keyed Node.HasDistinctKeys entries

theorem Node.hasDistinctKeys_table (origin : Origin) {entries : List (String × Node)}
    (sound : Sound entries) : (Node.table origin entries).HasDistinctKeys :=
  .table origin entries sound.distinct sound.values

theorem Node.hasDistinctKeys_tables {items : List (List (String × Node))}
    (sound : ∀ item ∈ items, Sound item) : (Node.tables items).HasDistinctKeys :=
  .tables items (fun item member => (sound item member).distinct)
    (fun item member => (sound item member).values)

theorem Sound.of_table {origin : Origin} {entries : List (String × Node)}
    (within : (Node.table origin entries).HasDistinctKeys) : Sound entries := by
  cases within with
  | table _ _ distinct values => exact ⟨distinct, values⟩

theorem Sound.of_tables {items : List (List (String × Node))}
    (within : (Node.tables items).HasDistinctKeys) (item : List (String × Node))
    (member : item ∈ items) : Sound item := by
  cases within with
  | tables _ distinct values => exact ⟨distinct item member, values item member⟩

/-! ### Tables that grow -/

theorem alterAt_sound (made : Origin)
    (change : Origin → List (String × Node) → Option (List (String × Node)))
    (keeps : ∀ origin entries changed, Sound entries → change origin entries = some changed →
      Sound changed) (path : List String) (origin : Origin) (entries changed : List (String × Node))
    (sound : Sound entries) (done : alterAt made change path origin entries = some changed) :
    Sound changed := by
  induction path generalizing origin entries changed with
  | nil => exact keeps origin entries changed sound done
  | cons key path ih =>
    rw [alterAt] at done
    split at done
    · obtain ⟨below, step, same⟩ := Option.bind_eq_some_iff.mp done
      obtain rfl := Option.some.inj same
      exact sound.setEntry key (Node.hasDistinctKeys_table made (ih _ _ _ (.nil _) step))
    · cases done
    · next inner children found =>
      split at done
      · cases done
      · obtain ⟨below, step, same⟩ := Option.bind_eq_some_iff.mp done
        obtain rfl := Option.some.inj same
        have own := Sound.of_table (sound.lookup found)
        exact sound.setEntry key (Node.hasDistinctKeys_table inner (ih _ _ _ own step))
    · next items found =>
      obtain ⟨last, isLast, done⟩ := Option.bind_eq_some_iff.mp done
      obtain ⟨below, step, same⟩ := Option.bind_eq_some_iff.mp done
      obtain rfl := Option.some.inj same
      have own := Sound.of_tables (sound.lookup found)
      refine sound.setEntry key (Node.hasDistinctKeys_tables fun item member => ?_)
      rcases List.mem_append.mp member with member | member
      · exact own item ((List.dropLast_sublist items).subset member)
      · obtain rfl := List.mem_singleton.mp member
        exact ih _ _ _ (own last (List.mem_of_getLast? isLast)) step

theorem putEntry_sound {entries changed : List (String × Node)} {entry : KeyPath × Value}
    (sound : Sound entries) (good : entry.2.HasDistinctKeys)
    (done : putEntry entries entry = some changed) : Sound changed := by
  refine alterAt_sound _ _ ?_ _ _ _ _ sound done
  intro origin table changed own put
  split at put
  · next free =>
    obtain rfl := Option.some.inj put
    exact own.append_new free.2 (.leaf entry.2 good)
  · cases put

theorem putEntries_sound {entries changed : List (String × Node)} {added : List (KeyPath × Value)}
    (sound : Sound entries) (good : ∀ entry ∈ added, entry.2.HasDistinctKeys)
    (done : putEntries entries added = some changed) : Sound changed := by
  induction added generalizing entries with
  | nil => exact Option.some.inj done ▸ sound
  | cons entry rest ih =>
    obtain ⟨own, others⟩ := List.forall_mem_cons.mp good
    rw [putEntries, List.foldlM_cons] at done
    obtain ⟨next, put, done⟩ := Option.bind_eq_some_iff.mp done
    exact ih (putEntry_sound sound own put) others done

/-! ### Tables as values -/

theorem map_fst_entryValues (entries : List (String × Node)) :
    (entryValues entries).map Prod.fst = entries.map Prod.fst := by
  induction entries with
  | nil => rfl
  | cons entry rest ih => simp [entryValues, ih]

theorem mem_entryValues {entries : List (String × Node)} {entry : String × Value}
    (member : entry ∈ entryValues entries) : ∃ node, (entry.1, node) ∈ entries ∧
      entry.2 = node.toValue := by
  induction entries with
  | nil => cases member
  | cons first rest ih =>
    obtain ⟨key, node⟩ := first
    rcases List.mem_cons.mp member with rfl | later
    · exact ⟨node, List.mem_cons_self, rfl⟩
    · obtain ⟨other, within, same⟩ := ih later
      exact ⟨other, List.mem_cons_of_mem _ within, same⟩

theorem mem_tableValues {items : List (List (String × Node))} {value : Value}
    (member : value ∈ tableValues items) : ∃ item ∈ items, value = .table (entryValues item) := by
  induction items with
  | nil => cases member
  | cons first rest ih =>
    rcases List.mem_cons.mp member with rfl | later
    · exact ⟨first, List.mem_cons_self, rfl⟩
    · obtain ⟨item, within, same⟩ := ih later
      exact ⟨item, List.mem_cons_of_mem _ within, same⟩

theorem Node.HasDistinctKeys.toValue {node : Node} (within : node.HasDistinctKeys) :
    node.toValue.HasDistinctKeys := by
  induction within with
  | leaf value within => exact within
  | table origin entries distinct _ ih =>
    rw [Node.toValue]
    refine .table _ (by rwa [map_fst_entryValues]) fun entry member => ?_
    obtain ⟨node, within, same⟩ := mem_entryValues member
    exact same ▸ ih _ within
  | tables items distinct _ ih =>
    rw [Node.toValue]
    refine .array _ fun value member => ?_
    obtain ⟨item, among, rfl⟩ := mem_tableValues member
    refine .table _ (by rw [map_fst_entryValues]; exact distinct item among) fun entry member => ?_
    obtain ⟨node, within, same⟩ := mem_entryValues member
    exact same ▸ ih item among _ within

theorem Sound.entryValues {entries : List (String × Node)} (sound : Sound entries) :
    Keyed Value.HasDistinctKeys (entryValues entries) := by
  constructor
  · rw [map_fst_entryValues]
    exact sound.distinct
  · intro entry member
    obtain ⟨node, within, same⟩ := mem_entryValues member
    exact same ▸ (sound.values _ within).toValue

/-! ### Values that are read -/

theorem moment?_hasDistinctKeys {word : List Char} {value : Value}
    (read : moment? word = some value) : value.HasDistinctKeys := by
  unfold moment? at read
  split at read
  · exact Option.some.inj read ▸ .moment _
  · split at read
    · obtain ⟨time, -, rfl⟩ := Option.map_eq_some_iff.mp read
      exact .moment _
    · cases read
  · split at read
    · exact Option.some.inj read ▸ .moment _
    · cases read

theorem integerOf_hasDistinctKeys {negative : Bool} {magnitude : Nat} {value : Value}
    (read : integerOf negative magnitude = some value) : value.HasDistinctKeys := by
  unfold integerOf at read
  obtain ⟨bounds, same⟩ := Option.ite_none_right_eq_some.mp read
  exact Option.some.inj same ▸ .integer _

theorem integer?_hasDistinctKeys {word : List Char} {value : Value}
    (read : integer? word = some value) : value.HasDistinctKeys := by
  unfold integer? at read
  split at read
  all_goals
    obtain ⟨digits, -, read⟩ := Option.bind_eq_some_iff.mp read
    exact integerOf_hasDistinctKeys read

theorem decimal?_hasDistinctKeys {word : List Char} {value : Value}
    (read : decimal? word = some value) : value.HasDistinctKeys := by
  unfold decimal? at read
  obtain ⟨whole, -, read⟩ := Option.bind_eq_some_iff.mp read
  dsimp only at read
  split at read
  · cases read
  all_goals
    obtain ⟨parts, -, read⟩ := Option.bind_eq_some_iff.mp read
    obtain ⟨exponent, -, read⟩ := Option.bind_eq_some_iff.mp read
    obtain ⟨finite, same⟩ := Option.ite_none_left_eq_some.mp read
    exact Option.some.inj same ▸ .float _

theorem float?_hasDistinctKeys {word : List Char} {value : Value}
    (read : float? word = some value) : value.HasDistinctKeys := by
  unfold float? at read
  dsimp only at read
  split_ifs at read
  · exact Option.some.inj read ▸ .float _
  · exact Option.some.inj read ▸ .float _
  · exact decimal?_hasDistinctKeys read

theorem scalar?_hasDistinctKeys {word : List Char} {value : Value}
    (read : scalar? word = some value) : value.HasDistinctKeys := by
  unfold scalar? at read
  split_ifs at read
  · exact Option.some.inj read ▸ .boolean _
  · exact Option.some.inj read ▸ .boolean _
  · rcases Option.or_eq_some_iff.mp read with read | ⟨-, read⟩
    · exact moment?_hasDistinctKeys read
    · rcases Option.or_eq_some_iff.mp read with read | ⟨-, read⟩
      · exact float?_hasDistinctKeys read
      · exact integer?_hasDistinctKeys read

/-- What a reader of values gives has distinct keys. -/
def ReadsDistinctKeys (read : List Char → Option (Value × List Char)) : Prop :=
  ∀ text value rest, read text = some (value, rest) → value.HasDistinctKeys

theorem readScalar_readsDistinctKeys : ReadsDistinctKeys readScalar := by
  intro text value rest read
  rcases Option.or_eq_some_iff.mp read with read | ⟨-, read⟩
  · unfold spacedTime? at read
    split at read
    · obtain ⟨time, -, same⟩ := Option.map_eq_some_iff.mp read
      exact (Prod.mk.inj same).1 ▸ .moment _
    · cases read
  · obtain ⟨other, read, same⟩ := Option.map_eq_some_iff.mp read
    exact (Prod.mk.inj same).1 ▸ scalar?_hasDistinctKeys read

theorem readPlain_readsDistinctKeys : ReadsDistinctKeys readPlain := by
  intro text value rest read
  unfold readPlain at read
  split at read
  · obtain ⟨quoted, -, same⟩ := Option.map_eq_some_iff.mp read
    exact (Prod.mk.inj same).1 ▸ .string _
  · obtain ⟨quoted, -, same⟩ := Option.map_eq_some_iff.mp read
    exact (Prod.mk.inj same).1 ▸ .string _
  · exact readScalar_readsDistinctKeys _ _ _ read

theorem readItems_hasDistinctKeys {readItem : List Char → Option (Value × List Char)}
    (reads : ReadsDistinctKeys readItem) (fuel : Nat) {text rest : List Char} {items : List Value}
    (read : readItems readItem fuel text = some (items, rest)) :
    ∀ item ∈ items, item.HasDistinctKeys := by
  induction fuel generalizing text rest items with
  | zero => cases read
  | succ fuel ih =>
    rw [readItems] at read
    obtain ⟨start, -, read⟩ := Option.bind_eq_some_iff.mp read
    split at read
    · obtain ⟨rfl, -⟩ := Prod.mk.inj (Option.some.inj read)
      exact List.forall_mem_nil _
    · obtain ⟨⟨item, next⟩, own, read⟩ := Option.bind_eq_some_iff.mp read
      obtain ⟨mark, -, read⟩ := Option.bind_eq_some_iff.mp read
      have first := reads _ _ _ own
      split at read
      · obtain ⟨⟨others, last⟩, more, read⟩ := Option.bind_eq_some_iff.mp read
        obtain ⟨rfl, -⟩ := Prod.mk.inj (Option.some.inj read)
        exact List.forall_mem_cons.mpr ⟨first, ih more⟩
      · obtain ⟨rfl, -⟩ := Prod.mk.inj (Option.some.inj read)
        exact List.forall_mem_singleton.mpr first
      · cases read

theorem readEntries_hasDistinctKeys {readItem : List Char → Option (Value × List Char)}
    (reads : ReadsDistinctKeys readItem) (fuel : Nat) {text rest : List Char}
    {entries : List (KeyPath × Value)}
    (read : readEntries readItem fuel text = some (entries, rest)) :
    ∀ entry ∈ entries, entry.2.HasDistinctKeys := by
  induction fuel generalizing text rest entries with
  | zero => cases read
  | succ fuel ih =>
    rw [readEntries] at read
    obtain ⟨⟨path, next⟩, -, read⟩ := Option.bind_eq_some_iff.mp read
    obtain ⟨start, -, read⟩ := Option.bind_eq_some_iff.mp read
    obtain ⟨⟨value, mark⟩, own, read⟩ := Option.bind_eq_some_iff.mp read
    have first := reads _ _ _ own
    dsimp only at read
    split at read
    · obtain ⟨⟨others, last⟩, more, read⟩ := Option.bind_eq_some_iff.mp read
      obtain ⟨rfl, -⟩ := Prod.mk.inj (Option.some.inj read)
      exact List.forall_mem_cons.mpr ⟨first, ih more⟩
    · obtain ⟨rfl, -⟩ := Prod.mk.inj (Option.some.inj read)
      exact List.forall_mem_singleton.mpr first
    · cases read

theorem readInlineTable_readsDistinctKeys {readItem : List Char → Option (Value × List Char)}
    (reads : ReadsDistinctKeys readItem) : ReadsDistinctKeys (readInlineTable readItem) := by
  intro text value rest read
  unfold readInlineTable at read
  split at read
  · obtain ⟨rfl, -⟩ := Prod.mk.inj (Option.some.inj read)
    exact .table [] List.nodup_nil (List.forall_mem_nil _)
  · obtain ⟨⟨entries, after⟩, some, read⟩ := Option.bind_eq_some_iff.mp read
    obtain ⟨nodes, put, read⟩ := Option.bind_eq_some_iff.mp read
    obtain ⟨rfl, -⟩ := Prod.mk.inj (Option.some.inj read)
    have sound := putEntries_sound (.nil _) (readEntries_hasDistinctKeys reads _ some) put
    exact .table _ sound.entryValues.distinct sound.entryValues.values

theorem readValue_readsDistinctKeys (depth : Nat) : ReadsDistinctKeys (readValue depth) := by
  induction depth with
  | zero => exact readPlain_readsDistinctKeys
  | succ depth ih =>
    intro text value rest read
    unfold readValue at read
    split at read
    · obtain ⟨⟨items, after⟩, some, same⟩ := Option.map_eq_some_iff.mp read
      obtain ⟨rfl, -⟩ := Prod.mk.inj same
      exact .array items (readItems_hasDistinctKeys ih _ some)
    · exact readInlineTable_readsDistinctKeys ih _ _ _ read
    · exact readPlain_readsDistinctKeys _ _ _ read

/-! ### Documents -/

def Line.HasDistinctKeys : Line → Prop
  | .entry _ value => value.HasDistinctKeys
  | .table _ | .element _ => True

theorem readLine_hasDistinctKeys {text rest : List Char} {line : Line}
    (read : readLine text = some (line, rest)) : line.HasDistinctKeys := by
  unfold readLine at read
  split at read
  · obtain ⟨⟨path, next⟩, -, read⟩ := Option.bind_eq_some_iff.mp read
    obtain ⟨closed, -, read⟩ := Option.bind_eq_some_iff.mp read
    obtain ⟨after, -, read⟩ := Option.bind_eq_some_iff.mp read
    exact (Prod.mk.inj (Option.some.inj read)).1 ▸ trivial
  · obtain ⟨⟨path, next⟩, -, read⟩ := Option.bind_eq_some_iff.mp read
    obtain ⟨closed, -, read⟩ := Option.bind_eq_some_iff.mp read
    obtain ⟨after, -, read⟩ := Option.bind_eq_some_iff.mp read
    exact (Prod.mk.inj (Option.some.inj read)).1 ▸ trivial
  · obtain ⟨⟨path, next⟩, -, read⟩ := Option.bind_eq_some_iff.mp read
    obtain ⟨start, -, read⟩ := Option.bind_eq_some_iff.mp read
    obtain ⟨⟨value, mark⟩, own, read⟩ := Option.bind_eq_some_iff.mp read
    obtain ⟨after, -, read⟩ := Option.bind_eq_some_iff.mp read
    obtain ⟨rfl, -⟩ := Prod.mk.inj (Option.some.inj read)
    exact readValue_readsDistinctKeys _ _ _ _ own

theorem readLines_hasDistinctKeys (fuel : Nat) {text : List Char} {lines : List Line}
    (read : readLines fuel text = some lines) : ∀ line ∈ lines, line.HasDistinctKeys := by
  induction fuel generalizing text lines with
  | zero => cases read
  | succ fuel ih =>
    rw [readLines] at read
    split at read
    · obtain rfl := Option.some.inj read
      exact List.forall_mem_nil _
    · split at read
      · obtain ⟨after, -, read⟩ := Option.bind_eq_some_iff.mp read
        exact ih read
      · obtain ⟨⟨line, next⟩, own, read⟩ := Option.bind_eq_some_iff.mp read
        obtain ⟨others, more, read⟩ := Option.bind_eq_some_iff.mp read
        obtain rfl := Option.some.inj read
        exact List.forall_mem_cons.mpr ⟨readLine_hasDistinctKeys own, ih more⟩

theorem partsOf_hasDistinctKeys {lines : List Line}
    (within : ∀ line ∈ lines, line.HasDistinctKeys) :
    (∀ entry ∈ (partsOf lines).1, entry.2.HasDistinctKeys) ∧
      ∀ part ∈ (partsOf lines).2, ∀ entry ∈ part.entries, entry.2.HasDistinctKeys := by
  induction lines with
  | nil => exact ⟨List.forall_mem_nil _, List.forall_mem_nil _⟩
  | cons line rest ih =>
    obtain ⟨own, others⟩ := List.forall_mem_cons.mp within
    obtain ⟨entries, parts⟩ := ih others
    cases line with
    | entry path value => exact ⟨List.forall_mem_cons.mpr ⟨own, entries⟩, parts⟩
    | table path =>
      exact ⟨List.forall_mem_nil _, List.forall_mem_cons.mpr ⟨entries, parts⟩⟩
    | element path =>
      exact ⟨List.forall_mem_nil _, List.forall_mem_cons.mpr ⟨entries, parts⟩⟩

theorem putPart_sound {document changed : List (String × Node)} {part : Part}
    (sound : Sound document) (good : ∀ entry ∈ part.entries, entry.2.HasDistinctKeys)
    (done : putPart document part = some changed) : Sound changed := by
  refine alterAt_sound _ _ ?_ _ _ _ _ sound done
  intro origin parent changed own put
  split at put
  · obtain ⟨entries, filled, same⟩ := Option.bind_eq_some_iff.mp put
    obtain rfl := Option.some.inj same
    exact own.setEntry _ (Node.hasDistinctKeys_table .header (putEntries_sound (.nil _) good filled))
  · next below _ found =>
    obtain ⟨entries, filled, same⟩ := Option.bind_eq_some_iff.mp put
    obtain rfl := Option.some.inj same
    have kept := Sound.of_table (own.lookup found)
    exact own.setEntry _ (Node.hasDistinctKeys_table .header (putEntries_sound kept good filled))
  · obtain ⟨entries, filled, same⟩ := Option.bind_eq_some_iff.mp put
    obtain rfl := Option.some.inj same
    have filled := putEntries_sound (.nil _) good filled
    exact own.setEntry _ (Node.hasDistinctKeys_tables (List.forall_mem_singleton.mpr filled))
  · next items _ found =>
    obtain ⟨entries, filled, same⟩ := Option.bind_eq_some_iff.mp put
    obtain rfl := Option.some.inj same
    have filled := putEntries_sound (.nil _) good filled
    have kept := Sound.of_tables (own.lookup found)
    exact own.setEntry _ (Node.hasDistinctKeys_tables
      (List.forall_mem_append.mpr ⟨kept, List.forall_mem_singleton.mpr filled⟩))
  · cases put

theorem putParts_sound {document changed : List (String × Node)} {parts : List Part}
    (sound : Sound document)
    (good : ∀ part ∈ parts, ∀ entry ∈ part.entries, entry.2.HasDistinctKeys)
    (done : parts.foldlM putPart document = some changed) : Sound changed := by
  induction parts generalizing document with
  | nil => exact Option.some.inj done ▸ sound
  | cons part rest ih =>
    obtain ⟨own, others⟩ := List.forall_mem_cons.mp good
    rw [List.foldlM_cons] at done
    obtain ⟨next, put, done⟩ := Option.bind_eq_some_iff.mp done
    exact ih (putPart_sound sound own put) others done

/-- No table of a document has a key twice, the document itself included. -/
theorem parse?_hasDistinctKeys {text : String} {entries : List (String × Value)}
    (read : parse? text = some entries) : (Value.table entries).HasDistinctKeys := by
  obtain ⟨lines, some, made⟩ := Option.bind_eq_some_iff.mp read
  obtain ⟨top, filled, made⟩ := Option.bind_eq_some_iff.mp made
  obtain ⟨nodes, put, same⟩ := Option.bind_eq_some_iff.mp made
  obtain rfl := Option.some.inj same
  obtain ⟨own, parts⟩ := partsOf_hasDistinctKeys (readLines_hasDistinctKeys _ some)
  have sound := putParts_sound (putEntries_sound (.nil _) own filled) parts put
  exact .table _ sound.entryValues.distinct sound.entryValues.values

/-! ### What is read from a table -/

theorem map_fst_entryData (entries : List (String × Value)) :
    (entryData entries).map Prod.fst = entries.map Prod.fst := by
  induction entries with
  | nil => rfl
  | cons entry rest ih => simp [entryData, ih]

theorem map_fst_of_mapM {read : α → Option β} {entries : List (String × α)}
    {found : List (String × β)}
    (done : entries.mapM (fun (key, value) => (read value).map (key, ·)) = some found) :
    found.map Prod.fst = entries.map Prod.fst := by
  induction entries generalizing found with
  | nil => exact Option.some.inj done ▸ rfl
  | cons entry rest ih =>
    rw [List.mapM_cons] at done
    obtain ⟨first, own, done⟩ := Option.bind_eq_some_iff.mp done
    obtain ⟨others, more, done⟩ := Option.bind_eq_some_iff.mp done
    obtain ⟨value, -, rfl⟩ := Option.map_eq_some_iff.mp own
    obtain rfl := Option.some.inj done
    rw [List.map_cons, List.map_cons, ih more]

theorem Value.HasDistinctKeys.entries? {value : Value} (within : value.HasDistinctKeys)
    {read : Datum → Option α} {found : List (String × α)}
    (done : Datum.entries? read value.datum = some found) : (found.map Prod.fst).Nodup := by
  cases within with
  | moment text =>
    rw [map_fst_of_mapM done]
    exact List.nodup_singleton _
  | table entries distinct =>
    rw [map_fst_of_mapM done, map_fst_entryData]
    exact distinct
  | _ => cases done

end FragmentBuild.Toml
