/-! The source text of a unit: its fragments in order, each on lines of its own. A
dependency stands in the source as one fragment that declares it. -/
namespace FragmentBuild

structure Dependency where
  name : String
  version : String
  deriving DecidableEq, Repr

/-- A name in declarations: package names may hold hyphens, declared names have an
underscore for each. -/
def declaredName (name : List Char) : List Char := name.map fun c => if c = '-' then '_' else c

/-- The fragment that makes a package visible to the compiler. -/
def declaration (package : String) : String :=
  "extern crate " ++ String.ofList (declaredName package.toList) ++ ";"

/-- Every fragment ends its line. -/
def sourceLines (fragments : List String) : List Char :=
  fragments.flatMap fun fragment => fragment.toList ++ ['\n']

def sourceText (fragments : List String) : String := String.ofList (sourceLines fragments)

theorem sourceLines_append (first second : List String) :
    sourceLines (first ++ second) = sourceLines first ++ sourceLines second :=
  List.flatMap_append

end FragmentBuild
