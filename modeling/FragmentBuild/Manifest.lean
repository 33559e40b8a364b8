import FragmentBuild.Source
import FragmentBuild.Toml.Printer

/-! Package manifests: sections of entries in the order they were made, written as a TOML
document. Repeated keys are kept as they stand. -/
namespace FragmentBuild

structure Manifest.Section where
  name : String
  entries : List (String × Toml.Value)
  deriving Repr

structure Manifest where
  sections : List Manifest.Section
  deriving Repr

namespace Manifest

/-- A key is written bare where TOML allows it and else as a string value is. -/
def writeKey (key : List Char) : List Char :=
  if Toml.isBareKey key then key else Toml.writeText key

def writeEntry (entry : String × Toml.Value) : List Char :=
  writeKey entry.1.toList ++ [' ', '=', ' '] ++ entry.2.write ++ ['\n']

def Section.write (group : Section) : List Char :=
  '[' :: group.name.toList ++ [']', '\n'] ++ group.entries.flatMap writeEntry

def write (manifest : Manifest) : List Char :=
  ((manifest.sections.map Section.write).intersperse ['\n']).flatten

def render (manifest : Manifest) : String := String.ofList manifest.write

def packageName : String := "graft-quasiquote"

def packageVersion : String := "0.1.0"

def libraryName : String := "quasiquote"

def sourceFileName : String := "quasiquote.rs"

def fileName : String := "Cargo.toml"

/-- The manifest of a package around one source file: a fixed identity, every dependency
as declared, and a static archive as its product. -/
def ofDependencies (dependencies : List Dependency) (edition : Option String) : Manifest where
  sections :=
    [⟨"package",
      [("name", .string packageName), ("version", .string packageVersion)]
        ++ (edition.map fun year => ("edition", .string year)).toList⟩,
     ⟨"dependencies", dependencies.map fun package => (package.name, .string package.version)⟩,
     ⟨"lib",
      [("name", .string libraryName), ("path", .string sourceFileName),
       ("crate-type", .array [.string "staticlib"])]⟩]

end Manifest

end FragmentBuild
