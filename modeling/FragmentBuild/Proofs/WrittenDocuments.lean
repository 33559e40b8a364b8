import FragmentBuild.Proofs.WrittenValues
import FragmentBuild.Toml.Document

/-! Written manifests, read back as documents, line by line. Main statement: a manifest whose
section names are bare and distinct, and whose keys are distinct in each section, reads back as its
sections if each of its keys keeps to one line, and is no document otherwise. -/
namespace FragmentBuild

namespace Toml

/-! ### Lines -/

/-- What lines a text has, to a reader with fuel for all of it. -/
def HasLines (text : List Char) (lines : Option (List Line)) : Prop :=
  ∀ fuel, text.length < fuel → readLines fuel text = lines

/-- A line that is neither empty nor a comment starts with one of these. -/
def OpensLine (c : Char) : Prop := isWhite c = false ∧ ¬ (c = '#' ∨ c = '\n' ∨ c = '\r')

instance (c : Char) : Decidable (OpensLine c) := inferInstanceAs (Decidable (_ ∧ _))

theorem opensLine_of_startsKey (starts : StartsKey c) : OpensLine c := by
  refine ⟨not_isWhite_of_startsKey starts, ?_⟩
  rintro (rfl | rfl | rfl)
  all_goals exact absurd starts (by decide)

theorem readLines_line (fuel : Nat) (opens : OpensLine c) (text : List Char) :
    readLines (fuel + 1) (c :: text) =
      (readLine (c :: text)).bind fun (line, rest) =>
        (readLines fuel rest).map (line :: ·) := by
  obtain ⟨black, apart⟩ := opens
  rw [readLines, skipWhite_of_not_isWhite black]
  simp [apart, Option.map_eq_bind]

theorem hasLines_nil : HasLines [] (some []) := by
  intro fuel enough
  match fuel, enough with
  | fuel + 1, _ => rfl

theorem HasLines.newline (later : HasLines rest lines) : HasLines ('\n' :: rest) lines := by
  intro fuel enough
  match fuel, enough with
  | fuel + 1, enough =>
    have lines := later fuel (by simpa using enough)
    rw [← lines]
    rfl

theorem HasLines.cons (opens : OpensLine c) (reads : readLine (c :: text) = some (line, rest))
    (shorter : rest.length ≤ text.length) (later : HasLines rest lines) :
    HasLines (c :: text) (lines.map (line :: ·)) := by
  intro fuel enough
  match fuel, enough with
  | fuel + 1, enough =>
    have lines := later fuel (by simp only [List.length_cons] at enough; omega)
    rw [readLines_line fuel opens, reads, ← lines]
    rfl

theorem HasLines.broken (opens : OpensLine c) (reads : readLine (c :: text) = none) :
    HasLines (c :: text) none := by
  intro fuel enough
  match fuel, enough with
  | fuel + 1, _ => rw [readLines_line fuel opens, reads, Option.bind_none]

theorem afterLine?_newline (rest : List Char) : afterLine? ('\n' :: rest) = some rest := rfl

/-! ### Headers and entries -/

theorem readLine_header (name : String) (rest : List Char)
    (bare : isBareKey name.toList = true) :
    readLine ('[' :: (name.toList ++ ']' :: '\n' :: rest)) = some (.table ⟨[], name⟩, rest) := by
  obtain ⟨c, more, shape, first⟩ := bareKey_eq_cons name.toList bare
  have starts : StartsKey c := .inl first
  have apart := starts.ne (by decide : ¬ StartsKey '[')
  have reads := readKey_bare name.toList (']' :: '\n' :: rest) bare (Stops.cons (by decide) _)
  rw [String.ofList_toList, shape, List.cons_append] at reads
  have path := readPath_single starts reads rfl (by decide)
  rw [shape, List.cons_append]
  simp [readLine, apart, path, restAfter?, afterLine?_newline]

theorem readLine_key (starts : StartsKey c) (text : List Char) :
    readLine (c :: text) =
      (readPath nestingLimit (c :: text)).bind fun (path, rest) =>
        (afterEquals? rest).bind fun rest =>
          (readValue nestingLimit rest).bind fun (value, rest) =>
            (afterLine? rest).map fun rest => (.entry path value, rest) := by
  have apart := starts.ne (by decide : ¬ StartsKey '[')
  simp [readLine, apart, Option.map_eq_bind]

end Toml

namespace Manifest

open Toml

/-- An entry that a document can hold: its key keeps to one line, and its value does not nest too
deep. -/
def IsReadable (entry : String × Value) : Prop :=
  KeepsLine entry.1.toList ∧ entry.2.nesting ≤ nestingLimit

instance (entry : String × Value) : Decidable (IsReadable entry) :=
  inferInstanceAs (Decidable (_ ∧ _))

theorem writeEntry_append (entry : String × Value) (rest : List Char) :
    writeEntry entry ++ rest =
      writeKey entry.1.toList ++ ' ' :: '=' :: ' ' :: (entry.2.write ++ '\n' :: rest) := by
  simp [writeEntry]

theorem readPath_writeKey (key : String) (text : List Char) (keeps : KeepsLine key.toList) :
    readPath nestingLimit (writeKey key.toList ++ ' ' :: '=' :: text) =
      some (⟨[], key⟩, '=' :: text) := by
  obtain ⟨c, more, shape, starts⟩ := writeKey_eq_cons key.toList
  have reads := readKey_writeKey key.toList (' ' :: '=' :: text) keeps (Stops.cons (by decide) _)
  rw [shape, List.cons_append, String.ofList_toList] at reads
  rw [shape, List.cons_append]
  exact readPath_single starts reads rfl (by decide)

theorem readPath_writeKey_of_not_keepsLine (key text : List Char) (breaks : ¬ KeepsLine key) :
    ∃ mark more, (mark = '"' ∨ mark = '\'') ∧
      readPath nestingLimit (writeKey key ++ text) = some (⟨[], ""⟩, mark :: more) := by
  obtain ⟨mark, more, quote, reads⟩ := readKey_writeKey_of_not_keepsLine key text breaks
  obtain ⟨c, rest, shape, starts⟩ := writeKey_eq_cons key
  refine ⟨mark, more, quote, ?_⟩
  rw [shape, List.cons_append] at reads ⊢
  refine readPath_single starts reads ?_ ?_
  · refine skipWhite_of_not_isWhite ?_ more
    rcases quote with rfl | rfl
    all_goals rfl
  · rcases quote with rfl | rfl
    all_goals decide

theorem readLine_writeEntry (entry : String × Value) (rest : List Char)
    (plain : entry.2.IsPlain) :
    readLine (writeEntry entry ++ rest) =
      if IsReadable entry then some (.entry ⟨[], entry.1⟩ entry.2, rest) else none := by
  obtain ⟨c, more, shape, starts⟩ := writeKey_eq_cons entry.1.toList
  have line := readLine_key starts (more ++ ' ' :: '=' :: ' ' :: (entry.2.write ++ '\n' :: rest))
  rw [← List.cons_append, ← shape] at line
  rw [writeEntry_append, line]
  by_cases keeps : KeepsLine entry.1.toList
  · have reads := readsBack_of_isPlain entry.2 plain nestingLimit ('\n' :: rest)
      (Stops.cons (by decide) _)
    rw [readPath_writeKey entry.1 _ keeps]
    by_cases shallow : entry.2.nesting ≤ nestingLimit
    · simp [IsReadable, keeps, shallow, afterEquals?_write plain, reads, afterLine?_newline]
    · simp [IsReadable, shallow, afterEquals?_write plain, reads]
  · obtain ⟨mark, more, quote, path⟩ := readPath_writeKey_of_not_keepsLine entry.1.toList
      (' ' :: '=' :: ' ' :: (entry.2.write ++ '\n' :: rest)) keeps
    rw [path]
    rcases quote with rfl | rfl
    all_goals simp [IsReadable, keeps, afterEquals?]

/-! ### Sections -/

def entryLines (entries : List (String × Value)) : List Line :=
  entries.map fun entry => .entry ⟨[], entry.1⟩ entry.2

def Section.lines (group : Section) : List Line :=
  .table ⟨[], group.name⟩ :: entryLines group.entries

def Section.IsReadable (group : Section) : Prop :=
  ∀ entry ∈ group.entries, Manifest.IsReadable entry

instance (group : Section) : Decidable group.IsReadable :=
  inferInstanceAs (Decidable (∀ entry ∈ group.entries, Manifest.IsReadable entry))

theorem writeEntry_eq_cons (entry : String × Value) :
    ∃ c rest, writeEntry entry = c :: (rest ++ ['\n']) ∧ StartsKey c := by
  obtain ⟨c, rest, shape, starts⟩ := writeKey_eq_cons entry.1.toList
  refine ⟨c, rest ++ [' ', '=', ' '] ++ entry.2.write, ?_, starts⟩
  simp [writeEntry, shape]

theorem hasLines_writeEntry (entry : String × Value) (plain : entry.2.IsPlain)
    (later : HasLines rest lines) :
    HasLines (writeEntry entry ++ rest)
      (if IsReadable entry then lines.map (.entry ⟨[], entry.1⟩ entry.2 :: ·) else none) := by
  obtain ⟨c, more, shape, starts⟩ := writeEntry_eq_cons entry
  have reads := readLine_writeEntry entry rest plain
  have opens := opensLine_of_startsKey starts
  rw [shape, List.cons_append] at reads ⊢
  by_cases readable : IsReadable entry
  · rw [if_pos readable] at reads ⊢
    exact HasLines.cons opens reads (by simp; omega) later
  · rw [if_neg readable] at reads ⊢
    exact HasLines.broken opens reads

theorem hasLines_entries (entries : List (String × Value))
    (plain : ∀ entry ∈ entries, entry.2.IsPlain) (later : HasLines rest lines) :
    HasLines (entries.flatMap writeEntry ++ rest)
      (if ∀ entry ∈ entries, IsReadable entry then lines.map (entryLines entries ++ ·)
      else none) := by
  induction entries with
  | nil => simpa [entryLines] using later
  | cons entry entries ih =>
    have others := ih fun entry member => plain entry (List.mem_cons_of_mem _ member)
    have all := hasLines_writeEntry entry (plain entry List.mem_cons_self) others
    have both := List.forall_mem_cons (p := IsReadable) (a := entry) (l := entries)
    rw [guard_map_guard, Option.map_map] at all
    rw [List.flatMap_cons, List.append_assoc, if_congr both rfl rfl]
    exact all

theorem hasLines_section (group : Section) (bare : isBareKey group.name.toList = true)
    (plain : ∀ entry ∈ group.entries, entry.2.IsPlain) (later : HasLines rest lines) :
    HasLines (group.write ++ rest)
      (if group.IsReadable then lines.map (group.lines ++ ·) else none) := by
  have entries : HasLines (group.entries.flatMap writeEntry ++ rest)
      (if group.IsReadable then lines.map (entryLines group.entries ++ ·) else none) :=
    hasLines_entries group.entries plain later
  have header := readLine_header group.name (group.entries.flatMap writeEntry ++ rest) bare
  have all := HasLines.cons (by decide) header (by simp; omega) entries
  have shape : group.write ++ rest = '[' :: (group.name.toList ++ ']' :: '\n' ::
      (group.entries.flatMap writeEntry ++ rest)) := by
    simp [Section.write]
  rw [shape]
  by_cases readable : group.IsReadable
  · rw [if_pos readable, Option.map_map] at all
    rw [if_pos readable]
    exact all
  · rw [if_neg readable, Option.map_none] at all
    rw [if_neg readable]
    exact all

theorem hasLines_write (sections : List Section)
    (bare : ∀ group ∈ sections, isBareKey group.name.toList = true)
    (plain : ∀ group ∈ sections, ∀ entry ∈ group.entries, entry.2.IsPlain) :
    HasLines (write ⟨sections⟩)
      (if ∀ group ∈ sections, group.IsReadable then some (sections.flatMap Section.lines)
      else none) := by
  induction sections with
  | nil => simpa [write] using hasLines_nil
  | cons group sections ih =>
    have bareFirst := bare group List.mem_cons_self
    have plainFirst := plain group List.mem_cons_self
    have both := List.forall_mem_cons (p := Section.IsReadable) (a := group) (l := sections)
    cases sections with
    | nil =>
      have own := hasLines_section group bareFirst plainFirst hasLines_nil
      have shape : write ⟨[group]⟩ = group.write ++ [] := by simp [write]
      rw [shape, if_congr List.forall_mem_singleton rfl rfl]
      simpa using own
    | cons next sections =>
      have others := ih (fun group member => bare group (List.mem_cons_of_mem _ member))
        (fun group member => plain group (List.mem_cons_of_mem _ member))
      have own := hasLines_section group bareFirst plainFirst others.newline
      have shape : write ⟨group :: next :: sections⟩ =
          group.write ++ '\n' :: write ⟨next :: sections⟩ := by
        simp [write]
      rw [guard_map_guard] at own
      rw [shape, if_congr both rfl rfl]
      exact own

/-! ### Documents -/

def Section.part (group : Section) : Part := ⟨false, ⟨[], group.name⟩, single group.entries⟩

theorem partsOf_entryLines (entries : List (String × Value)) (lines : List Line) :
    partsOf (entryLines entries ++ lines) =
      (single entries ++ (partsOf lines).1, (partsOf lines).2) := by
  induction entries with
  | nil => rfl
  | cons entry entries ih =>
    have step : partsOf (entryLines (entry :: entries) ++ lines) =
        ((⟨[], entry.1⟩, entry.2) :: (partsOf (entryLines entries ++ lines)).1,
          (partsOf (entryLines entries ++ lines)).2) := rfl
    rw [step, ih]
    rfl

theorem partsOf_lines (sections : List Section) :
    partsOf (sections.flatMap Section.lines) = ([], sections.map Section.part) := by
  induction sections with
  | nil => rfl
  | cons group sections ih =>
    have entries := partsOf_entryLines group.entries (sections.flatMap Section.lines)
    have step : partsOf ((group :: sections).flatMap Section.lines) =
        ([], ⟨false, ⟨[], group.name⟩,
            (partsOf (entryLines group.entries ++ sections.flatMap Section.lines)).1⟩ ::
          (partsOf (entryLines group.entries ++ sections.flatMap Section.lines)).2) := rfl
    rw [step, entries, ih, List.append_nil]
    rfl

def tables (sections : List Section) : List (String × Node) :=
  sections.map fun group => (group.name, .table .header (leaves group.entries))

theorem setEntry_of_not_mem_keys (key : String) (value : α) (entries : List (String × α))
    (fresh : key ∉ entries.map Prod.fst) :
    setEntry key value entries = entries ++ [(key, value)] := by
  induction entries with
  | nil => rfl
  | cons entry entries ih =>
    rw [List.map_cons, List.mem_cons, not_or] at fresh
    rw [setEntry, if_neg (Ne.symm fresh.1), ih fresh.2, List.cons_append]

theorem putPart_part (before : List Section) (group : Section)
    (fresh : group.name ∉ before.map Section.name)
    (distinct : (group.entries.map Prod.fst).Nodup) :
    putPart (tables before) group.part = some (tables (before ++ [group])) := by
  have keys : (tables before).map Prod.fst = before.map Section.name := by
    simp [tables]
  have entries : putEntries [] (single group.entries) = some (leaves group.entries) :=
    putEntries_single [] group.entries distinct
  rw [← keys] at fresh
  have absent := lookup_eq_none_of_not_mem_keys (tables before) fresh
  have added := setEntry_of_not_mem_keys group.name
    (Node.table .header (leaves group.entries)) (tables before) fresh
  have grown : tables (before ++ [group]) =
      tables before ++ [(group.name, .table .header (leaves group.entries))] := by
    simp [tables]
  rw [grown, ← added]
  simp [putPart, Section.part, alterAt, absent, entries]

theorem putParts (before sections : List Section)
    (names : ((before ++ sections).map Section.name).Nodup)
    (keys : ∀ group ∈ sections, (group.entries.map Prod.fst).Nodup) :
    (sections.map Section.part).foldlM putPart (tables before) =
      some (tables (before ++ sections)) := by
  induction sections generalizing before with
  | nil => simp
  | cons group sections ih =>
    have fresh : group.name ∉ before.map Section.name := by
      intro member
      rw [List.map_append, List.nodup_append] at names
      exact names.2.2 group.name member group.name (by simp) rfl
    have later := ih (before ++ [group]) (by simpa using names)
      fun group member => keys group (List.mem_cons_of_mem _ member)
    rw [List.map_cons, List.foldlM_cons,
      putPart_part before group fresh (keys group List.mem_cons_self)]
    simpa using later

def document (manifest : Manifest) : List (String × Value) :=
  manifest.sections.map fun group => (group.name, .table group.entries)

theorem entryValues_tables (sections : List Section) :
    entryValues (tables sections) = document ⟨sections⟩ := by
  induction sections with
  | nil => rfl
  | cons group sections ih =>
    have values := entryValues_leaves group.entries
    rw [tables] at ih
    rw [tables, List.map_cons, entryValues, ih, Node.toValue, values]
    rfl

theorem documentOf_lines (sections : List Section) (names : (sections.map Section.name).Nodup)
    (keys : ∀ group ∈ sections, (group.entries.map Prod.fst).Nodup) :
    documentOf (sections.flatMap Section.lines) = some (document ⟨sections⟩) := by
  have parts : (sections.map Section.part).foldlM putPart [] = some (tables sections) :=
    putParts [] sections names keys
  have values := entryValues_tables sections
  simp [documentOf, partsOf_lines, putEntries, parts, values]

theorem parse?_of_hasLines (text : String) (unmarked : ∀ rest, text.toList ≠ '\ufeff' :: rest)
    (reads : HasLines text.toList lines) : parse? text = lines.bind documentOf := by
  have all := reads (text.toList.length + 1) (Nat.lt_succ_self _)
  unfold parse?
  split
  · next rest marked => exact absurd marked (unmarked rest)
  · rw [← all]
    rfl

theorem unmarked_write (manifest : Manifest) (rest : List Char) :
    manifest.write ≠ '\ufeff' :: rest := by
  obtain ⟨sections⟩ := manifest
  match sections with
  | [] => simp [write]
  | [group] => simp [write, Section.write]
  | group :: next :: sections => simp [write, Section.write]

theorem parse?_render (manifest : Manifest)
    (bare : ∀ group ∈ manifest.sections, isBareKey group.name.toList = true)
    (plain : ∀ group ∈ manifest.sections, ∀ entry ∈ group.entries, entry.2.IsPlain)
    (names : (manifest.sections.map Section.name).Nodup)
    (keys : ∀ group ∈ manifest.sections, (group.entries.map Prod.fst).Nodup) :
    parse? manifest.render =
      if ∀ group ∈ manifest.sections, group.IsReadable then some manifest.document else none := by
  have text : manifest.render.toList = manifest.write := by
    rw [render, String.toList_ofList]
  have reads := hasLines_write manifest.sections bare plain
  rw [parse?_of_hasLines manifest.render (by rw [text]; exact unmarked_write manifest)
    (by rw [text]; exact reads)]
  by_cases readable : ∀ group ∈ manifest.sections, group.IsReadable
  · rw [if_pos readable, if_pos readable, Option.bind_some,
      documentOf_lines manifest.sections names keys]
  · rw [if_neg readable, if_neg readable, Option.bind_none]

end Manifest

end FragmentBuild
