import FragmentBuild.Proofs.WrittenNumbers

/-! Written values, read back. Main statement: a value of texts, truth values, integers, arrays and
tables reads back from its written form, whatever follows it, by a reader that nests as deep as the
value does, and is refused by any other. -/
namespace FragmentBuild.Toml

/-! ### Values without floating-point numbers and dates -/

/-- A value of texts, integers, truth values, arrays and tables whose keys are distinct. -/
inductive Value.IsPlain : Value → Prop where
  | string (text : String) : IsPlain (.string text)
  | integer (number : Int64) : IsPlain (.integer number)
  | boolean (value : Bool) : IsPlain (.boolean value)
  | array (items : List Value) (plain : ∀ item ∈ items, IsPlain item) : IsPlain (.array items)
  | table (entries : List (String × Value)) (distinct : (entries.map Prod.fst).Nodup)
      (plain : ∀ entry ∈ entries, IsPlain entry.2) : IsPlain (.table entries)

mutual

/-- How deep arrays and tables nest in a value. -/
def Value.nesting : Value → Nat
  | .array items => itemsNesting items + 1
  | .table entries => entriesNesting entries + 1
  | _ => 0

def itemsNesting : List Value → Nat
  | [] => 0
  | item :: rest => max item.nesting (itemsNesting rest)

def entriesNesting : List (String × Value) → Nat
  | [] => 0
  | (_, value) :: rest => max value.nesting (entriesNesting rest)

end

/-- Where a value can start: not at white space, at a comment, at a line's end or at the end of
an array. -/
def StartsValue (c : Char) : Prop := c ∉ [' ', '\t', '#', '\n', '\r', ']']

instance (c : Char) : Decidable (StartsValue c) := inferInstanceAs (Decidable (¬ _))

theorem startsValue_of_isDigit (digit : isDigit 10 c = true) : StartsValue c :=
  not_mem_of_isDigit _ digit (by decide)

theorem writeInteger_eq_cons (number : Int) :
    ∃ c rest, writeInteger number = c :: rest ∧ (c = '-' ∨ isDigit 10 c = true) := by
  obtain ⟨negative, shape, -, -, chars⟩ := writeInteger_shape number
  cases written : writeInteger number with
  | nil =>
    rw [written] at shape
    exact absurd (congrArg Prod.snd shape).symm (digits_ne_nil (by omega) _)
  | cons c rest => exact ⟨c, rest, rfl, chars c (by rw [written]; exact List.mem_cons_self)⟩

theorem write_eq_cons_of_isPlain (value : Value) (plain : value.IsPlain) :
    ∃ c rest, value.write = c :: rest ∧ StartsValue c := by
  cases plain with
  | string text =>
    obtain ⟨c, rest, shape, mark⟩ := write_eq_cons (TextForm.choose text.toList) text.toList
    refine ⟨c, rest, shape, ?_⟩
    rcases mark with rfl | rfl <;> decide
  | integer number =>
    obtain ⟨c, rest, shape, start⟩ := writeInteger_eq_cons number.toInt
    refine ⟨c, rest, shape, ?_⟩
    rcases start with rfl | digit
    · decide
    · exact startsValue_of_isDigit digit
  | boolean value =>
    cases value with
    | true => exact ⟨'t', _, rfl, by decide⟩
    | false => exact ⟨'f', _, rfl, by decide⟩
  | array items plain => exact ⟨'[', _, rfl, by decide⟩
  | table entries distinct plain =>
    cases entries with
    | nil => exact ⟨'{', _, rfl, by decide⟩
    | cons entry rest => exact ⟨'{', _, rfl, by decide⟩

theorem not_isWhite_of_startsValue (starts : StartsValue c) : isWhite c = false := by
  simp only [StartsValue, List.mem_cons, not_or] at starts
  simp [isWhite, starts.1, starts.2.1]

theorem skipLines_of_startsValue (starts : StartsValue c) (rest : List Char) :
    skipLines false (c :: rest) = some (c :: rest) := by
  have black := not_isWhite_of_startsValue starts
  simp only [StartsValue, List.mem_cons, not_or] at starts
  obtain ⟨-, -, comment, newline, carriage, -⟩ := starts
  simp [skipLines, black, comment, carriage]

/-! ### Texts, integers and truth values -/

theorem readValue_plain (depth : Nat) (c : Char) (rest : List Char) (array : c ≠ '[')
    (table : c ≠ '{') : readValue depth (c :: rest) = readPlain (c :: rest) := by
  cases depth with
  | zero => rfl
  | succ depth => simp [readValue, array, table]

theorem readValue_string (depth : Nat) (text : String) (rest : List Char)
    (stops : Stops extendsValue rest) :
    readValue depth ((Value.string text).write ++ rest) = some (.string text, rest) := by
  obtain ⟨c, more, shape, mark⟩ := write_eq_cons (TextForm.choose text.toList) text.toList
  have reads := readText_writeText text.toList rest (stops_of_stops_extendsValue stops).2
  rw [writeText, shape, List.cons_append] at reads
  rw [Value.write, writeText, shape, List.cons_append,
    readValue_plain depth c _ (by rcases mark with rfl | rfl <;> decide)
      (by rcases mark with rfl | rfl <;> decide)]
  rcases mark with rfl | rfl
  all_goals simp [readPlain, reads]

theorem readValue_word (depth : Nat) (c : Char) (rest : List Char) (word : isWordChar c = true) :
    readValue depth (c :: rest) = readScalar (c :: rest) := by
  have apart (d : Char) (other : isWordChar d = false) : c ≠ d := by
    rintro rfl
    rw [word] at other
    cases other
  have quote := apart '"' (by decide)
  have apostrophe := apart '\'' (by decide)
  rw [readValue_plain depth c rest (apart '[' (by decide)) (apart '{' (by decide))]
  simp [readPlain, quote, apostrophe]

theorem readScalar_eq_none (c : Char) (rest : List Char) (other : isWordChar c = false) :
    readScalar (c :: rest) = none := by
  have empty : scalar? [] = none := by decide
  simp [readScalar, other, spacedTime?, date?, empty]

theorem readValue_integer (depth : Nat) (number : Int64) (rest : List Char)
    (stops : Stops extendsValue rest) :
    readValue depth ((Value.integer number).write ++ rest) = some (.integer number, rest) := by
  obtain ⟨c, more, shape, start⟩ := writeInteger_eq_cons number.toInt
  have reads := readScalar_writeInteger number rest (stops_of_stops_extendsValue stops).1
  have word : isWordChar c = true := by
    rcases start with rfl | digit
    · decide
    · exact isWordChar_of_isDigit c digit
  rw [shape, List.cons_append] at reads
  rw [Value.write, shape, List.cons_append, readValue_word depth c _ word, reads]

theorem readValue_boolean (depth : Nat) (value : Bool) (rest : List Char)
    (stops : Stops extendsValue rest) :
    readValue depth ((Value.boolean value).write ++ rest) = some (.boolean value, rest) := by
  have reads := readScalar_boolean value rest (stops_of_stops_extendsValue stops).1
  cases value with
  | true => exact (readValue_word depth 't' _ (by decide)).trans reads
  | false => exact (readValue_word depth 'f' _ (by decide)).trans reads

/-! ### Arrays -/

theorem guard_map_guard [Decidable P] [Decidable Q] (value : Option α) (f : α → β) :
    (if P then (if Q then value else none).map f else none) =
      if P ∧ Q then value.map f else none := by
  by_cases first : P
  · by_cases second : Q
    · simp [first, second]
    · simp [second]
  · simp [first]

/-- A reader that nests to a depth gives a value back, unless that nests deeper. -/
def ReadsBack (depth : Nat) (value : Value) : Prop :=
  ∀ rest, Stops extendsValue rest →
    readValue depth (value.write ++ rest) =
      if value.nesting ≤ depth then some (value, rest) else none

theorem readItems_last (fuel : Nat) (rest : List Char) (plain : Value.IsPlain item)
    (back : ReadsBack depth item) :
    readItems (readValue depth) (fuel + 1) (item.write ++ ']' :: rest) =
      if item.nesting ≤ depth then some ([item], rest) else none := by
  obtain ⟨c, more, shape, starts⟩ := write_eq_cons_of_isPlain item plain
  have reads := back (']' :: rest) (Stops.cons (by decide) rest)
  have apart : c ≠ ']' := by
    rintro rfl
    exact starts (by decide)
  rw [shape, List.cons_append] at reads
  rw [shape, List.cons_append, readItems, skipLines_of_startsValue starts]
  by_cases deep : item.nesting ≤ depth
  · simp [apart, reads, deep, skipLines, isWhite]
  · simp [apart, reads, deep]

theorem readItems_space (read : List Char → Option (Value × List Char)) (fuel : Nat)
    (text : List Char) : readItems read fuel (' ' :: text) = readItems read fuel text := by
  cases fuel with
  | zero => rfl
  | succ fuel => simp [readItems, skipLines, isWhite]

theorem readItems_next (fuel : Nat) (text : List Char) (plain : Value.IsPlain item)
    (back : ReadsBack depth item) :
    readItems (readValue depth) (fuel + 1) (item.write ++ ',' :: ' ' :: text) =
      if item.nesting ≤ depth then
        (readItems (readValue depth) fuel text).map fun (items, rest) => (item :: items, rest)
      else none := by
  obtain ⟨c, more, shape, starts⟩ := write_eq_cons_of_isPlain item plain
  have reads := back (',' :: ' ' :: text) (Stops.cons (by decide) _)
  have apart : c ≠ ']' := by
    rintro rfl
    exact starts (by decide)
  rw [shape, List.cons_append] at reads
  rw [shape, List.cons_append, readItems, skipLines_of_startsValue starts]
  by_cases deep : item.nesting ≤ depth
  · simp [apart, reads, deep, skipLines, isWhite, readItems_space, Option.map_eq_bind]
  · simp [apart, reads, deep]

theorem itemsNesting_cons_le (depth : Nat) (item : Value) (items : List Value) :
    itemsNesting (item :: items) ≤ depth ↔ item.nesting ≤ depth ∧ itemsNesting items ≤ depth :=
  Nat.max_le

theorem writeItems_cons (item next : Value) (items : List Value) :
    writeItems (item :: next :: items) =
      item.write ++ ',' :: ' ' :: writeItems (next :: items) := by
  simp [writeItems]

theorem readItems_writeItems (items : List Value) (fuel : Nat) (rest : List Char)
    (plain : ∀ item ∈ items, item.IsPlain) (back : ∀ item ∈ items, ReadsBack depth item)
    (enough : items.length ≤ fuel) :
    readItems (readValue depth) (fuel + 1) (writeItems items ++ ']' :: rest) =
      if itemsNesting items ≤ depth then some (items, rest) else none := by
  induction items generalizing fuel with
  | nil => simp [writeItems, readItems, skipLines, itemsNesting, isWhite]
  | cons item items ih =>
    have first := plain item List.mem_cons_self
    have firstBack := back item List.mem_cons_self
    cases items with
    | nil =>
      rw [writeItems, readItems_last fuel rest first firstBack]
      simp [itemsNesting]
    | cons next items =>
      obtain ⟨fuel, rfl⟩ : ∃ more, fuel = more + 1 :=
        Nat.exists_eq_add_one.mpr (Nat.lt_of_lt_of_le (Nat.succ_pos _) enough)
      have later := ih fuel (fun item member => plain item (List.mem_cons_of_mem _ member))
        (fun item member => back item (List.mem_cons_of_mem _ member)) (by simpa using enough)
      have both := itemsNesting_cons_le depth item (next :: items)
      rw [writeItems_cons, List.append_assoc, List.cons_append, List.cons_append,
        readItems_next (fuel + 1) _ first firstBack, later, guard_map_guard,
        if_congr both rfl rfl]
      rfl

theorem length_le_length_writeItems (items : List Value) :
    items.length ≤ (writeItems items).length + 1 := by
  induction items with
  | nil => exact Nat.zero_le _
  | cons item items ih =>
    cases items with
    | nil => simp [writeItems]
    | cons next items =>
      rw [writeItems_cons]
      simp only [List.length_append, List.length_cons] at ih ⊢
      omega

theorem readsBack_array (items : List Value) (plain : ∀ item ∈ items, item.IsPlain)
    (back : ∀ item ∈ items, ∀ depth, ReadsBack depth item) (depth : Nat) :
    ReadsBack depth (.array items) := by
  intro rest _
  have shape : (Value.array items).write ++ rest = '[' :: (writeItems items ++ ']' :: rest) := by
    simp [Value.write]
  rw [shape, Value.nesting]
  cases depth with
  | zero =>
    have unread := readScalar_eq_none '[' (writeItems items ++ ']' :: rest) (by decide)
    simp [readValue, readPlain, unread]
  | succ depth =>
    have enough : items.length ≤ (writeItems items ++ ']' :: rest).length := by
      have short := length_le_length_writeItems items
      simp only [List.length_append, List.length_cons]
      omega
    have reads := readItems_writeItems items _ rest plain
      (fun item member => back item member depth) enough
    rw [readValue, List.length_cons, reads]
    by_cases deep : itemsNesting items ≤ depth
    · rw [if_pos deep, if_pos (Nat.succ_le_succ deep), Option.map_some]
    · rw [if_neg deep, if_neg fun le => deep (Nat.le_of_succ_le_succ le), Option.map_none]

/-! ### Tables -/

theorem skipWhite_space (text : List Char) : skipWhite (' ' :: text) = skipWhite text := by
  simp [skipWhite, isWhite]

theorem readPath_space (most : Nat) (text : List Char) :
    readPath most (' ' :: text) = readPath most text := by
  cases most with
  | zero => rfl
  | succ most => rw [readPath, readPath, skipWhite_space]

theorem readEntries_space (read : List Char → Option (Value × List Char)) (fuel : Nat)
    (text : List Char) : readEntries read fuel (' ' :: text) = readEntries read fuel text := by
  cases fuel with
  | zero => rfl
  | succ fuel => rw [readEntries, readEntries, readPath_space]

theorem readPath_writeInlineKey (key : String) (text : List Char) :
    readPath nestingLimit (writeInlineKey key.toList ++ ' ' :: '=' :: text) =
      some (⟨[], key⟩, '=' :: text) := by
  obtain ⟨c, more, shape, starts⟩ := writeInlineKey_eq_cons key.toList
  have reads := readKey_writeInlineKey key.toList (' ' :: '=' :: text) (Stops.cons (by decide) _)
  rw [shape, List.cons_append, String.ofList_toList] at reads
  rw [shape, List.cons_append]
  exact readPath_single starts reads rfl (by decide)

theorem afterEquals?_write (plain : Value.IsPlain value) (text : List Char) :
    afterEquals? ('=' :: ' ' :: (value.write ++ text)) = some (value.write ++ text) := by
  obtain ⟨c, more, shape, starts⟩ := write_eq_cons_of_isPlain value plain
  rw [afterEquals?, skipWhite_space, shape, List.cons_append,
    skipWhite_of_not_isWhite (not_isWhite_of_startsValue starts)]

theorem readEntries_last (fuel : Nat) (key : String) (rest : List Char)
    (plain : Value.IsPlain value) (back : ReadsBack depth value) :
    readEntries (readValue depth) (fuel + 1)
        (writeInlineKey key.toList ++ ' ' :: '=' :: ' ' :: (value.write ++ ' ' :: '}' :: rest)) =
      if value.nesting ≤ depth then some ([(⟨[], key⟩, value)], rest) else none := by
  have reads := back (' ' :: '}' :: rest) (Stops.cons (by decide) _)
  rw [readEntries, readPath_writeInlineKey]
  by_cases deep : value.nesting ≤ depth
  · simp [afterEquals?_write plain, reads, deep, skipWhite, isWhite]
  · simp [afterEquals?_write plain, reads, deep]

theorem readEntries_next (fuel : Nat) (key : String) (text : List Char)
    (plain : Value.IsPlain value) (back : ReadsBack depth value) :
    readEntries (readValue depth) (fuel + 1)
        (writeInlineKey key.toList ++ ' ' :: '=' :: ' ' :: (value.write ++ ',' :: ' ' :: text)) =
      if value.nesting ≤ depth then
        (readEntries (readValue depth) fuel text).map fun (entries, rest) =>
          ((⟨[], key⟩, value) :: entries, rest)
      else none := by
  have reads := back (',' :: ' ' :: text) (Stops.cons (by decide) _)
  rw [readEntries, readPath_writeInlineKey]
  by_cases deep : value.nesting ≤ depth
  · simp [afterEquals?_write plain, reads, deep, skipWhite, isWhite, readEntries_space,
      Option.map_eq_bind]
  · simp [afterEquals?_write plain, reads, deep]

theorem entriesNesting_cons_le (depth : Nat) (entry : String × Value)
    (entries : List (String × Value)) :
    entriesNesting (entry :: entries) ≤ depth ↔
      entry.2.nesting ≤ depth ∧ entriesNesting entries ≤ depth :=
  Nat.max_le

def single (entries : List (String × α)) : List (KeyPath × α) :=
  entries.map fun entry => (⟨[], entry.1⟩, entry.2)

theorem writeEntries_cons (key : String) (value : Value) (next : String × Value)
    (entries : List (String × Value)) :
    writeEntries ((key, value) :: next :: entries) =
      writeInlineKey key.toList ++ ' ' :: '=' :: ' ' ::
        (value.write ++ ',' :: ' ' :: writeEntries (next :: entries)) := by
  simp [writeEntries]

theorem readEntries_writeEntries (entries : List (String × Value)) (full : entries ≠ [])
    (fuel : Nat) (rest : List Char) (plain : ∀ entry ∈ entries, entry.2.IsPlain)
    (back : ∀ entry ∈ entries, ReadsBack depth entry.2) (enough : entries.length ≤ fuel) :
    readEntries (readValue depth) fuel (writeEntries entries ++ ' ' :: '}' :: rest) =
      if entriesNesting entries ≤ depth then some (single entries, rest) else none := by
  induction entries generalizing fuel with
  | nil => exact absurd rfl full
  | cons entry entries ih =>
    obtain ⟨key, value⟩ := entry
    have first := plain (key, value) List.mem_cons_self
    have firstBack := back (key, value) List.mem_cons_self
    obtain ⟨fuel, rfl⟩ : ∃ more, fuel = more + 1 :=
      Nat.exists_eq_add_one.mpr (Nat.lt_of_lt_of_le (Nat.succ_pos _) enough)
    cases entries with
    | nil =>
      have last := readEntries_last fuel key rest first firstBack
      rw [writeEntries]
      simp only [List.append_assoc, List.cons_append, List.nil_append, last]
      simp [entriesNesting, single]
    | cons next entries =>
      have later := ih (List.cons_ne_nil _ _) fuel
        (fun entry member => plain entry (List.mem_cons_of_mem _ member))
        (fun entry member => back entry (List.mem_cons_of_mem _ member))
        (Nat.le_of_succ_le_succ enough)
      have both := entriesNesting_cons_le depth (key, value) (next :: entries)
      have step := readEntries_next fuel key (writeEntries (next :: entries) ++ ' ' :: '}' :: rest)
        first firstBack
      rw [writeEntries_cons]
      simp only [List.append_assoc, List.cons_append]
      rw [step, later, guard_map_guard, if_congr both rfl rfl]
      rfl

def leaves (entries : List (String × Value)) : List (String × Node) :=
  entries.map fun entry => (entry.1, .leaf entry.2)

theorem lookup_eq_none_of_not_mem_keys (entries : List (String × α))
    (fresh : key ∉ entries.map Prod.fst) : entries.lookup key = none := by
  rw [List.lookup_eq_none_iff]
  intro entry member
  rw [bne_iff_ne]
  rintro rfl
  exact fresh (List.mem_map_of_mem member)

theorem keys_leaves (entries : List (String × Value)) :
    (leaves entries).map Prod.fst = entries.map Prod.fst := by
  simp [leaves]

theorem putEntries_single (before added : List (String × Value))
    (distinct : ((before ++ added).map Prod.fst).Nodup) :
    putEntries (leaves before) (single added) = some (leaves (before ++ added)) := by
  induction added generalizing before with
  | nil => simp [putEntries, single]
  | cons entry added ih =>
    have fresh : entry.1 ∉ before.map Prod.fst := by
      intro member
      rw [List.map_append, List.nodup_append] at distinct
      exact distinct.2.2 entry.1 member entry.1 (by simp) rfl
    have later := ih (before ++ [entry]) (by simpa using distinct)
    have first : putEntry (leaves before) (⟨[], entry.1⟩, entry.2) =
        some (leaves (before ++ [entry])) := by
      have absent := lookup_eq_none_of_not_mem_keys (leaves before) (keys_leaves before ▸ fresh)
      rw [leaves] at absent
      simp [putEntry, alterAt, leaves, absent]
    rw [putEntries, single, List.map_cons, List.foldlM_cons, first]
    simpa [putEntries, single] using later

theorem entryValues_leaves (entries : List (String × Value)) :
    entryValues (leaves entries) = entries := by
  induction entries with
  | nil => rfl
  | cons entry entries ih =>
    rw [leaves] at ih
    rw [leaves, List.map_cons, entryValues, ih, Node.toValue]

theorem length_le_length_writeEntries (entries : List (String × Value)) :
    entries.length ≤ (writeEntries entries).length := by
  induction entries with
  | nil => exact Nat.zero_le _
  | cons entry entries ih =>
    cases entries with
    | nil => simp [writeEntries]; omega
    | cons next entries =>
      rw [writeEntries_cons]
      simp only [List.length_append, List.length_cons] at ih ⊢
      omega

theorem writeEntries_eq_cons (entries : List (String × Value)) (full : entries ≠ []) :
    ∃ c rest, writeEntries entries = c :: rest ∧ StartsKey c := by
  match entries, full with
  | (key, value) :: entries, _ =>
    obtain ⟨c, rest, shape, starts⟩ := writeInlineKey_eq_cons key.toList
    cases entries with
    | nil =>
      refine ⟨c, rest ++ [' ', '=', ' '] ++ value.write, ?_, starts⟩
      simp [writeEntries, shape]
    | cons next entries =>
      refine ⟨c, rest ++ ' ' :: '=' :: ' ' ::
        (value.write ++ ',' :: ' ' :: writeEntries (next :: entries)), ?_, starts⟩
      rw [writeEntries_cons, shape, List.cons_append]

theorem readInlineTable_key (read : List Char → Option (Value × List Char))
    (starts : StartsKey c) (more : List Char) :
    readInlineTable read (' ' :: c :: more) =
      (readEntries read (c :: more).length (c :: more)).bind fun (entries, rest) =>
        (putEntries [] entries).map fun nodes => (.table (entryValues nodes), rest) := by
  have apart := starts.ne (by decide : ¬ StartsKey '}')
  rw [readInlineTable, skipWhite_space,
    skipWhite_of_not_isWhite (not_isWhite_of_startsKey starts)]
  simp [apart, Option.map_eq_bind]

theorem readInlineTable_writeEntries (entries : List (String × Value)) (rest : List Char)
    (full : entries ≠ []) (distinct : (entries.map Prod.fst).Nodup)
    (plain : ∀ entry ∈ entries, entry.2.IsPlain)
    (back : ∀ entry ∈ entries, ReadsBack depth entry.2) :
    readInlineTable (readValue depth) (' ' :: (writeEntries entries ++ ' ' :: '}' :: rest)) =
      if entriesNesting entries ≤ depth then some (.table entries, rest) else none := by
  have enough : entries.length ≤ (writeEntries entries ++ ' ' :: '}' :: rest).length := by
    have short := length_le_length_writeEntries entries
    simp only [List.length_append]
    omega
  have reads := readEntries_writeEntries entries full _ rest plain back enough
  have put := putEntries_single [] entries distinct
  have values := entryValues_leaves entries
  obtain ⟨c, more, shape, starts⟩ := writeEntries_eq_cons entries full
  rw [shape, List.cons_append] at reads
  rw [shape, List.cons_append, readInlineTable_key _ starts, reads]
  by_cases deep : entriesNesting entries ≤ depth
  · rw [if_pos deep, if_pos deep]
    have nodes : putEntries [] (single entries) = some (leaves entries) := put
    simp [nodes, values]
  · rw [if_neg deep, if_neg deep, Option.bind_none]

theorem write_table (entries : List (String × Value)) (full : entries ≠ []) :
    (Value.table entries).write = ['{', ' '] ++ writeEntries entries ++ [' ', '}'] := by
  match entries, full with
  | entry :: entries, _ => rfl

theorem readsBack_table (entries : List (String × Value))
    (distinct : (entries.map Prod.fst).Nodup) (plain : ∀ entry ∈ entries, entry.2.IsPlain)
    (back : ∀ entry ∈ entries, ∀ depth, ReadsBack depth entry.2) (depth : Nat) :
    ReadsBack depth (.table entries) := by
  intro rest _
  rw [Value.nesting]
  cases depth with
  | zero =>
    have unread (text : List Char) := readScalar_eq_none '{' text (by decide)
    cases entries with
    | nil => simp [Value.write, readValue, readPlain, unread]
    | cons entry entries => simp [Value.write, readValue, readPlain, unread]
  | succ depth =>
    by_cases empty : entries = []
    · subst empty
      simp [Value.write, readValue, readInlineTable, skipWhite, isWhite, entriesNesting]
    · have shape : (Value.table entries).write ++ rest =
          '{' :: ' ' :: (writeEntries entries ++ ' ' :: '}' :: rest) := by
        simp [write_table entries empty]
      have reads := readInlineTable_writeEntries entries rest empty distinct plain
        fun entry member => back entry member depth
      rw [shape, readValue, reads]
      by_cases deep : entriesNesting entries ≤ depth
      · rw [if_pos deep, if_pos (Nat.succ_le_succ deep)]
      · rw [if_neg deep, if_neg fun le => deep (Nat.le_of_succ_le_succ le)]

/-! ### All values -/

theorem readsBack_of_isPlain (value : Value) (plain : value.IsPlain) (depth : Nat) :
    ReadsBack depth value := by
  induction plain generalizing depth with
  | string text =>
    intro rest stops
    simp [readValue_string depth text rest stops, Value.nesting]
  | integer number =>
    intro rest stops
    simp [readValue_integer depth number rest stops, Value.nesting]
  | boolean value =>
    intro rest stops
    simp [readValue_boolean depth value rest stops, Value.nesting]
  | array items plain ih => exact readsBack_array items plain ih depth
  | table entries distinct plain ih => exact readsBack_table entries distinct plain ih depth

end FragmentBuild.Toml
