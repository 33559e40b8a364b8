import FragmentBuild.Builder
import FragmentBuild.World

/-! What a tool reads when it is called: the source file, and for a package build the
manifest beside it. -/
namespace FragmentBuild.Invocation

def isPackageCall (invocation : Invocation) : Bool :=
  (invocation.environment.lookup Builder.targetVariable).isSome

def manifestPath? (invocation : Invocation) : Option Path :=
  if invocation.isPackageCall then
    (invocation.words.findSome? fun word =>
      restAfter? (OsText.ofText "--manifest-path=").toList word.toList).map fun path => ⟨⟨path⟩⟩
  else none

/-- The path of the source file: beside the manifest, or the argument before the last
`-o`. -/
def sourcePath? (invocation : Invocation) : Option Path :=
  match invocation.manifestPath? with
  | some manifest =>
    some ((Path.ofComponents manifest.components.dropLast).child Manifest.sourceFileName)
  | none =>
    if invocation.isPackageCall then none
    else
      match invocation.words.reverse.dropWhile (· != ("-o" : OsText)) with
      | _ :: source :: _ => some ⟨source⟩
      | _ => none

def sourceText? (invocation : Invocation) (machine : Machine) : Option String :=
  invocation.sourcePath?.bind machine.textAt?

def manifestText? (invocation : Invocation) (machine : Machine) : Option String :=
  invocation.manifestPath?.bind machine.textAt?

end FragmentBuild.Invocation
