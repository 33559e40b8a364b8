import FragmentBuild.Proofs.WrittenKeys

/-! Manifest texts and what they declare. Main statement: the texts of two manifests are the same
if and only if they declare the same dependencies in the same order, with repetitions, and the same
edition. -/
namespace FragmentBuild

/-- A row of items that are told apart from what follows them, up to a mark that starts none. -/
theorem flatMap_append_inj (write : α → List Char) (mark : Char)
    (unique : ∀ a b r s, write a ++ r = write b ++ s → a = b ∧ r = s)
    (starts : ∀ a, ∃ c rest, write a = c :: rest ∧ c ≠ mark) (as bs : List α) (r s : List Char)
    (same : as.flatMap write ++ mark :: r = bs.flatMap write ++ mark :: s) :
    as = bs ∧ r = s := by
  induction as generalizing bs with
  | nil =>
    cases bs with
    | nil => exact ⟨rfl, (List.cons.inj same).2⟩
    | cons b bs =>
      obtain ⟨c, rest, shape, apart⟩ := starts b
      rw [List.flatMap_cons, shape] at same
      exact absurd (List.cons.inj same).1.symm apart
  | cons a as ih =>
    obtain ⟨c, rest, shape, apart⟩ := starts a
    cases bs with
    | nil =>
      rw [List.flatMap_cons, shape] at same
      exact absurd (List.cons.inj same).1 apart
    | cons b bs =>
      rw [List.flatMap_cons, List.flatMap_cons, List.append_assoc, List.append_assoc] at same
      obtain ⟨rfl, others⟩ := unique a b _ _ same
      obtain ⟨rfl, rest⟩ := ih bs others
      exact ⟨rfl, rest⟩

namespace Manifest

open Toml

/-! ### Entries -/

/-- Reads a key, also one that takes several lines and is no key of a document. -/
def readAnyKey (text : List Char) : Option (List Char × List Char) :=
  if text.takeWhile isBareKeyChar = [] then readText text
  else some (text.takeWhile isBareKeyChar, text.dropWhile isBareKeyChar)

theorem readAnyKey_writeKey (key rest : List Char) :
    readAnyKey (writeKey key ++ ' ' :: rest) = some (key, ' ' :: rest) := by
  have ends : Stops isBareKeyChar (' ' :: rest) := Stops.cons (by decide) rest
  rw [writeKey]
  split
  · next bare =>
    obtain ⟨full, chars⟩ := (isBareKey_iff key).mp bare
    rw [readAnyKey, takeWhile_append_of_stops key chars ends,
      dropWhile_append_of_stops key chars ends, if_neg full]
  · obtain ⟨mark, more, shape, quote⟩ := write_eq_cons (TextForm.choose key) key
    have other : isBareKeyChar mark = false := by
      rcases quote with rfl | rfl
      all_goals decide
    have none : (writeText key ++ ' ' :: rest).takeWhile isBareKeyChar = [] := by
      simp [writeText, shape, other]
    rw [readAnyKey, if_pos none,
      readText_writeText key (' ' :: rest) (StartsPlain.cons (by decide) _)]

theorem writeKey_append_inj (key other r s : List Char)
    (same : writeKey key ++ ' ' :: r = writeKey other ++ ' ' :: s) : key = other ∧ r = s := by
  have reads := readAnyKey_writeKey key r
  rw [same, readAnyKey_writeKey other s] at reads
  obtain ⟨rfl, rest⟩ := Prod.mk.inj (Option.some.inj reads)
  exact ⟨rfl, (List.cons.inj rest).2.symm⟩

theorem writeText_append_inj (text other r s : List Char)
    (same : writeText text ++ '\n' :: r = writeText other ++ '\n' :: s) :
    text = other ∧ r = s := by
  have reads := readText_writeText text ('\n' :: r) (StartsPlain.cons (by decide) _)
  rw [same, readText_writeText other ('\n' :: s) (StartsPlain.cons (by decide) _)] at reads
  obtain ⟨rfl, rest⟩ := Prod.mk.inj (Option.some.inj reads)
  exact ⟨rfl, (List.cons.inj rest).2.symm⟩

def textEntry (entry : String × String) : String × Value := (entry.1, .string entry.2)

def writeTexts (entries : List (String × String)) : List Char :=
  entries.flatMap fun entry => writeEntry (textEntry entry)

theorem writeEntry_append_inj (entry other : String × String) (r s : List Char)
    (same : writeEntry (textEntry entry) ++ r = writeEntry (textEntry other) ++ s) :
    entry = other ∧ r = s := by
  simp only [writeEntry, textEntry, Value.write, List.append_assoc, List.cons_append,
    List.nil_append] at same
  obtain ⟨keys, values⟩ := writeKey_append_inj _ _ _ _ same
  obtain ⟨values, rest⟩ := writeText_append_inj _ _ _ _ (List.cons.inj (List.cons.inj values).2).2
  exact ⟨Prod.ext (String.toList_inj.mp keys) (String.toList_inj.mp values), rest⟩

theorem writeTexts_append_inj (entries others : List (String × String)) (r s : List Char)
    (same : writeTexts entries ++ '\n' :: r = writeTexts others ++ '\n' :: s) :
    entries = others ∧ r = s := by
  refine flatMap_append_inj _ '\n' writeEntry_append_inj ?_ entries others r s same
  intro entry
  obtain ⟨c, rest, shape, starts⟩ := writeKey_eq_cons entry.1.toList
  refine ⟨c, rest ++ [' ', '=', ' '] ++ writeText entry.2.toList ++ ['\n'], ?_,
    starts.ne (by decide)⟩
  simp [writeEntry, textEntry, Value.write, shape]

/-! ### Manifests -/

def packageTexts (edition : Option String) : List (String × String) :=
  [("name", packageName), ("version", packageVersion)] ++
    (edition.map fun year => ("edition", year)).toList

def dependencyTexts (dependencies : List Dependency) : List (String × String) :=
  dependencies.map fun package => (package.name, package.version)

theorem packageTexts_inj (same : packageTexts edition = packageTexts other) : edition = other := by
  cases edition with
  | none =>
    cases other with
    | none => rfl
    | some year => simp [packageTexts] at same
  | some year =>
    cases other with
    | none => simp [packageTexts] at same
    | some year => simpa [packageTexts] using same

theorem dependencyTexts_inj (dependencies others : List Dependency)
    (same : dependencyTexts dependencies = dependencyTexts others) : dependencies = others := by
  refine List.map_injective_iff.mpr ?_ same
  rintro ⟨name, version⟩ ⟨name, version⟩ ⟨⟩
  rfl

def textSection (name : String) (entries : List (String × String)) : Section :=
  ⟨name, entries.map textEntry⟩

def librarySection : Section :=
  ⟨"lib", [("name", .string libraryName), ("path", .string sourceFileName),
    ("crate-type", .array [.string "staticlib"])]⟩

theorem sections_ofDependencies (dependencies : List Dependency) (edition : Option String) :
    (ofDependencies dependencies edition).sections =
      [textSection "package" (packageTexts edition),
       textSection "dependencies" (dependencyTexts dependencies), librarySection] := by
  have names : dependencies.map (fun package => (package.name, Value.string package.version)) =
      (dependencyTexts dependencies).map textEntry := by
    rw [dependencyTexts, List.map_map]
    rfl
  cases edition with
  | none => rw [ofDependencies, names]; rfl
  | some year => rw [ofDependencies, names]; rfl

theorem write_textSection (name : String) (entries : List (String × String)) :
    (textSection name entries).write = '[' :: name.toList ++ [']', '\n'] ++ writeTexts entries := by
  rw [Section.write, textSection, writeTexts, List.flatMap_map]

theorem write_ofDependencies (dependencies : List Dependency) (edition : Option String) :
    (ofDependencies dependencies edition).write =
      "[package]\n".toList ++ (writeTexts (packageTexts edition) ++ '\n' ::
        ("[dependencies]\n".toList ++ (writeTexts (dependencyTexts dependencies) ++ '\n' ::
          librarySection.write))) := by
  rw [write, sections_ofDependencies]
  simp [write_textSection]

/-- No name, version or edition makes a manifest look like another one. -/
theorem render_ofDependencies_inj (dependencies others : List Dependency)
    (edition other : Option String) :
    (ofDependencies dependencies edition).render = (ofDependencies others other).render ↔
      dependencies = others ∧ edition = other := by
  constructor
  · intro same
    have texts := String.ofList_injective same
    rw [write_ofDependencies, write_ofDependencies] at texts
    obtain ⟨editions, rest⟩ := writeTexts_append_inj _ _ _ _ (List.append_cancel_left texts)
    obtain ⟨names, -⟩ := writeTexts_append_inj _ _ _ _ (List.append_cancel_left rest)
    exact ⟨dependencyTexts_inj _ _ names, packageTexts_inj editions⟩
  · rintro ⟨rfl, rfl⟩
    rfl

end Manifest

end FragmentBuild
