import FragmentBuild.Builder
import FragmentBuild.World

/-! Tools that do one known thing, for runs without a toolchain. -/
namespace FragmentBuild

inductive ScriptedTool where
  /-- Succeeds and does nothing. -/
  | idle
  /-- Writes the archive it is told to write and succeeds. -/
  | archive (contents : ByteArray)
  /-- Writes part of the archive and is ended by a signal. -/
  | partialArchive (diagnostics : String)
  /-- Makes a directory where the archive should be and succeeds. -/
  | archiveDirectory
  /-- Writes the archive under another name, leaves a link to it where it is told to write it and
  succeeds. -/
  | linkedArchive (contents : ByteArray)
  | fail (code : Int) (diagnostics : String)
  /-- Cannot be started. -/
  | missing (message : String)

namespace ScriptedTool

/-- Where an invocation wants its archive: below the directory that a variable names for
package builds, or else at its last argument. -/
def archivePath (invocation : Invocation) : Path :=
  match invocation.environment.lookup Builder.targetVariable with
  | some target => Builder.builtArchive ⟨.ofBytes target⟩
  | none => ⟨.ofBytes (invocation.arguments.getLast?.getD .empty)⟩

def parentOf (path : Path) : Path := Path.ofComponents path.components.dropLast

def withFile (machine : Machine) (path : Path) (contents : ByteArray) : Disk :=
  let prepared := (machine.disk.makeDirectories machine.working (parentOf path)).2
  match prepared.write machine.working path contents with
  | .ok disk => disk
  | .error _ => prepared

def withDirectory (machine : Machine) (path : Path) : Disk :=
  let cleared :=
    match machine.disk.removeFile machine.working path with
    | .ok disk => disk
    | .error _ => machine.disk
  (cleared.makeDirectories machine.working path).2

def linkedName : String := "linked.a"

def withLink (machine : Machine) (path : Path) (contents : ByteArray) : Disk :=
  let written := withFile machine ((parentOf path).child linkedName) contents
  match written.makeLink machine.working ⟨linkedName⟩ path with
  | .ok disk => disk
  | .error _ => written

def tool (script : ScriptedTool) : Tool := fun invocation machine =>
  match script with
  | .idle => (.ok .succeeded, machine.disk)
  | .archive contents =>
    (.ok .succeeded, withFile machine (archivePath invocation) contents)
  | .partialArchive diagnostics =>
    (.ok (.failed none diagnostics),
      withFile machine (archivePath invocation) "partial".toUTF8)
  | .archiveDirectory => (.ok .succeeded, withDirectory machine (archivePath invocation))
  | .linkedArchive contents =>
    (.ok .succeeded, withLink machine (archivePath invocation) contents)
  | .fail code diagnostics => (.ok (.failed (some code) diagnostics), machine.disk)
  | .missing message => (.error (.other message), machine.disk)

end ScriptedTool

end FragmentBuild
