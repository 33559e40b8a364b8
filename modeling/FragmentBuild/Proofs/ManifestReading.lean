import FragmentBuild.Proofs.ManifestTexts
import FragmentBuild.Proofs.WrittenDocuments

/-! What a reader finds in the manifest of a package. Main statements: values read back from
their written form; with distinct bare names the manifest is a document that declares the package,
its dependencies and its library and nothing else, whatever the versions and the edition are; with
other names it is one if and only if each of them keeps to one line. -/
namespace FragmentBuild.Manifest

open Toml

/-- The document that declares dependencies: a package of fixed identity, each name with its
version, and a static library. -/
def declared (dependencies : List Dependency) (edition : Option String) : List (String × Value) :=
  [("package", .table ([("name", .string packageName), ("version", .string packageVersion)] ++
      (edition.map fun year => ("edition", Value.string year)).toList)),
   ("dependencies", .table (dependencies.map fun package =>
      (package.name, .string package.version))),
   ("lib", .table [("name", .string libraryName), ("path", .string sourceFileName),
      ("crate-type", .array [.string "staticlib"])])]

theorem document_ofDependencies (dependencies : List Dependency) (edition : Option String) :
    document (ofDependencies dependencies edition) = declared dependencies edition := rfl

/-! ### Sections of texts -/

theorem plain_textSection (name : String) (entries : List (String × String)) :
    ∀ entry ∈ (textSection name entries).entries, entry.2.IsPlain := by
  intro entry member
  obtain ⟨text, -, rfl⟩ := List.mem_map.mp member
  exact .string text.2

theorem keys_textSection (name : String) (entries : List (String × String)) :
    (textSection name entries).entries.map Prod.fst = entries.map Prod.fst := by
  rw [textSection, List.map_map]
  rfl

theorem isReadable_textSection (name : String) (entries : List (String × String)) :
    (textSection name entries).IsReadable ↔
      ∀ key ∈ entries.map Prod.fst, KeepsLine key.toList := by
  rw [Section.IsReadable, textSection, List.forall_mem_map, List.forall_mem_map]
  refine forall₂_congr ?_
  intro entry _
  exact and_iff_left (Nat.zero_le _)

theorem plain_librarySection : ∀ entry ∈ librarySection.entries, entry.2.IsPlain := by
  simp only [librarySection, List.forall_mem_cons]
  refine ⟨.string _, .string _, .array _ ?_, ?_⟩
  · rw [List.forall_mem_singleton]
    exact .string _
  · exact List.forall_mem_nil _

theorem keys_packageTexts (edition : Option String) :
    ((packageTexts edition).map Prod.fst).Nodup ∧
      ∀ key ∈ (packageTexts edition).map Prod.fst, KeepsLine key.toList := by
  cases edition with
  | none => exact ⟨by decide, by decide⟩
  | some year =>
    have keys : (packageTexts (some year)).map Prod.fst = ["name", "version", "edition"] := rfl
    rw [keys]
    exact ⟨by decide, by decide⟩

theorem keys_dependencyTexts (dependencies : List Dependency) :
    (dependencyTexts dependencies).map Prod.fst = dependencies.map Dependency.name := by
  rw [dependencyTexts, List.map_map]
  rfl

/-! ### The manifest of a package -/

theorem isReadable_ofDependencies (dependencies : List Dependency) (edition : Option String) :
    (∀ group ∈ (ofDependencies dependencies edition).sections, group.IsReadable) ↔
      ∀ package ∈ dependencies, KeepsLine package.name.toList := by
  have package := (isReadable_textSection "package" _).mpr (keys_packageTexts edition).2
  have library : librarySection.IsReadable := by decide
  rw [sections_ofDependencies]
  simp only [List.forall_mem_cons, package, library, isReadable_textSection,
    keys_dependencyTexts, List.forall_mem_map, true_and]
  exact and_iff_left (List.forall_mem_nil _)

theorem parse?_ofDependencies (dependencies : List Dependency) (edition : Option String)
    (distinct : (dependencies.map Dependency.name).Nodup) :
    parse? (ofDependencies dependencies edition).render =
      if ∀ package ∈ dependencies, KeepsLine package.name.toList then
        some (declared dependencies edition)
      else none := by
  have sections := sections_ofDependencies dependencies edition
  have readable := isReadable_ofDependencies dependencies edition
  rw [parse?_render, if_congr readable rfl rfl, document_ofDependencies]
  · have bare : ∀ name ∈ ["package", "dependencies", "lib"], isBareKey name.toList = true := by
      decide
    rw [sections]
    intro group member
    have named := List.mem_map_of_mem (f := Section.name) member
    exact bare group.name named
  · rw [sections]
    simp only [List.forall_mem_cons]
    exact ⟨plain_textSection _ _, plain_textSection _ _, plain_librarySection,
      List.forall_mem_nil _⟩
  · rw [sections]
    show ["package", "dependencies", "lib"].Nodup
    decide
  · rw [sections]
    simp only [List.forall_mem_cons, keys_textSection, keys_dependencyTexts]
    exact ⟨(keys_packageTexts edition).1, distinct, by decide, List.forall_mem_nil _⟩

/-- A value reads back up to the newline behind it, by a reader that nests as deep as it does. With
distinct bare names a manifest is the document that it is to be: its versions and its edition are
values of this document, whatever their texts are. -/
theorem values_read_back :
    (∀ value : Value, value.IsPlain → ∀ (depth : Nat) (rest : List Char),
      readValue depth (value.write ++ '\n' :: rest) =
        if value.nesting ≤ depth then some (value, '\n' :: rest) else none) ∧
    ∀ (dependencies : List Dependency) (edition : Option String),
      (dependencies.map Dependency.name).Nodup →
      (∀ package ∈ dependencies, isBareKey package.name.toList = true) →
      parse? (ofDependencies dependencies edition).render =
        some (declared dependencies edition) := by
  constructor
  · intro value plain depth rest
    exact readsBack_of_isPlain value plain depth ('\n' :: rest) (Stops.cons (by decide) rest)
  · intro dependencies edition distinct bare
    have keeps : ∀ package ∈ dependencies, KeepsLine package.name.toList := by
      intro package member
      exact keepsLine_of_isBareKey package.name.toList (bare package member)
    rw [parse?_ofDependencies dependencies edition distinct, if_pos keeps]

theorem isPlain_nested :
    (Value.table [("a b", .array [.string "x\ny", .integer (-3)]), ("", .table [])]).IsPlain := by
  refine .table _ (by decide) ?_
  simp only [List.forall_mem_cons]
  refine ⟨.array _ ?_, .table _ (by decide) (List.forall_mem_nil _), List.forall_mem_nil _⟩
  simp only [List.forall_mem_cons]
  exact ⟨.string _, .integer _, List.forall_mem_nil _⟩

theorem values_read_back_nested :
    readValue 2 ((Value.table [("a b", .array [.string "x\ny", .integer (-3)]),
        ("", .table [])]).write ++ ['\n']) =
      some (.table [("a b", .array [.string "x\ny", .integer (-3)]), ("", .table [])], ['\n']) ∧
    parse? (ofDependencies [⟨"rand", "1\"\n[lib]"⟩, ⟨"libc", "'''"⟩] (some "20\"21")).render =
      some (declared [⟨"rand", "1\"\n[lib]"⟩, ⟨"libc", "'''"⟩] (some "20\"21")) := by
  constructor
  · exact (values_read_back.1 _ isPlain_nested 2 []).trans (if_pos (by decide))
  · exact values_read_back.2 _ _ (by decide) (by decide)

/-- A key reads back if and only if it keeps to one line. A manifest with distinct names is the
document that it is to be if all of them keep to one line, and no document otherwise. -/
theorem keys_read_back_iff (key : String) (rest : List Char)
    (ends : Stops isBareKeyChar rest) (dependencies : List Dependency) (edition : Option String)
    (distinct : (dependencies.map Dependency.name).Nodup) :
    (readKey (writeKey key.toList ++ rest) = some (key, rest) ↔ KeepsLine key.toList) ∧
    parse? (ofDependencies dependencies edition).render =
      if ∀ package ∈ dependencies, KeepsLine package.name.toList then
        some (declared dependencies edition)
      else none := by
  have reads := readKey_writeKey_iff key.toList rest ends
  rw [String.ofList_toList] at reads
  exact ⟨reads, parse?_ofDependencies dependencies edition distinct⟩

theorem keys_read_back_iff_spaced :
    readKey (writeKey "a \"b\"".toList ++ [' ', '=']) = some ("a \"b\"", [' ', '=']) ∧
    parse? (ofDependencies [⟨"a \"b\"", "1"⟩, ⟨"", "2"⟩] none).render =
      some (declared [⟨"a \"b\"", "1"⟩, ⟨"", "2"⟩] none) := by
  have ends : Stops isBareKeyChar [' ', '='] := Stops.cons (by decide) _
  obtain ⟨key, document⟩ := keys_read_back_iff "a \"b\"" [' ', '='] ends
    [⟨"a \"b\"", "1"⟩, ⟨"", "2"⟩] none (by decide)
  constructor
  · exact key.mpr (by decide)
  · exact document.trans (if_pos (by decide))

/-- A name with both marks takes three of them on each side, and the manifest is no document. -/
theorem document_broken_by_key :
    readKey (writeKey "it's \"raw\"".toList ++ [' ', '=']) ≠
      some ("it's \"raw\"", [' ', '=']) ∧
    parse? (ofDependencies [⟨"it's \"raw\"", "1"⟩] none).render = none := by
  constructor
  · decide
  · rw [parse?_ofDependencies _ _ (by decide), if_neg (by decide)]

end FragmentBuild.Manifest
