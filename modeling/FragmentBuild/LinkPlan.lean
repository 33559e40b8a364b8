import FragmentBuild.Json.Value
import FragmentBuild.Path

/-! The archives that one run hands to the linker. -/
namespace FragmentBuild

inductive ArtifactKind where
  /-- As it is, as an object for the linker. -/
  | rawObject
  deriving DecidableEq, Repr

def ArtifactKind.name : ArtifactKind → String
  | .rawObject => "raw-object"

def ArtifactKind.ofDatum? (format : Datum.Format) (datum : Datum) : Option ArtifactKind :=
  (datum.choice? format ["raw-object"]).map fun _ => .rawObject

structure LinkPlan where
  objects : List Path
  deriving DecidableEq, Repr

namespace LinkPlan

def empty : LinkPlan := ⟨[]⟩

def isEmpty (plan : LinkPlan) : Bool := plan.objects.isEmpty

/-- Adds an archive, unless the plan has the same path already. -/
def register (plan : LinkPlan) (path : Path) : LinkPlan :=
  if plan.objects.any (·.same path) then plan else ⟨plan.objects ++ [path]⟩

def arguments (plan : LinkPlan) : List String := plan.objects.map Path.display

/-- The paths as texts. There are none unless all of them are text. -/
def texts? (plan : LinkPlan) : Option (List String) := plan.objects.mapM fun path => path.text.text?

def json (texts : List String) : Json.Value := .object [("objects", .array (texts.map .string))]

def render? (plan : LinkPlan) : Option String :=
  plan.texts?.map fun texts => (json texts).render (.lines 0)

def ofDatum? (format : Datum.Format) (datum : Datum) : Option LinkPlan := do
  match ← datum.fields? format ["objects"] with
  | [objects] => do return ⟨(← (← objects).list? Datum.text?).map Path.ofText⟩
  | _ => none

end LinkPlan

end FragmentBuild
