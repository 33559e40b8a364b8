import FragmentBuild.Path

/-! Why the operating system refuses a request. -/
namespace FragmentBuild

inductive SystemError where
  | notFound
  | argumentsTooLong
  | notExecutable
  | badDescriptor
  | permissionDenied
  | busy
  | alreadyExists
  | crossDevice
  | notADirectory
  | isADirectory
  | invalidArgument
  | nameTooLong
  | notEmpty
  /-- A file that should be text is no valid UTF-8. -/
  | invalidText
  /-- A path that should be text is no valid UTF-8. -/
  | pathNotText
  /-- A path or a word for a program holds the byte that ends texts. -/
  | nulInPath
  | nulInWord
  | unsupportedFile
  | tooManyLinks
  | namesExhausted
  | treeNotCreated
  | other (message : String)
  /-- An error together with the path it is about. -/
  | atPath (cause : SystemError) (path : Path)
  deriving DecidableEq, Repr, Inhabited

namespace SystemError

/-- What is wrong, without the number that the operating system has for it. -/
def description : SystemError → String
  | .notFound => "No such file or directory"
  | .argumentsTooLong => "Argument list too long"
  | .notExecutable => "Exec format error"
  | .badDescriptor => "Bad file descriptor"
  | .permissionDenied => "Permission denied"
  | .busy => "Device or resource busy"
  | .alreadyExists => "File exists"
  | .crossDevice => "Invalid cross-device link"
  | .notADirectory => "Not a directory"
  | .isADirectory => "Is a directory"
  | .invalidArgument => "Invalid argument"
  | .nameTooLong => "File name too long"
  | .notEmpty => "Directory not empty"
  | .invalidText => "stream did not contain valid UTF-8"
  | .pathNotText => "path contains invalid UTF-8 characters"
  | .nulInPath => "file name contained an unexpected NUL byte"
  | .nulInWord => "nul byte found in provided data"
  | .unsupportedFile => "the source path is neither a regular file nor a symlink to a regular file"
  | .tooManyLinks => "Too many levels of symbolic links"
  | .namesExhausted => "too many temporary files exist"
  | .treeNotCreated => "failed to create whole tree"
  | .other message => message
  | .atPath cause _ => cause.description

def number? : SystemError → Option Nat
  | .notFound => some 2
  | .argumentsTooLong => some 7
  | .notExecutable => some 8
  | .badDescriptor => some 9
  | .permissionDenied => some 13
  | .busy => some 16
  | .alreadyExists => some 17
  | .crossDevice => some 18
  | .notADirectory => some 20
  | .isADirectory => some 21
  | .invalidArgument => some 22
  | .nameTooLong => some 36
  | .notEmpty => some 39
  | .tooManyLinks => some 40
  | _ => none

def message : SystemError → String
  | .atPath cause path => cause.message ++ " at path " ++ path.quoted
  | error =>
    match error.number? with
    | some number => error.description ++ " (os error " ++ toString number ++ ")"
    | none => error.description

instance : ToString SystemError := ⟨message⟩

end SystemError

end FragmentBuild
