import FileShell.FileSystem.Errno
import FileShell.Path

namespace FileShell

inductive Fault where
  | os (errno : Errno)
  /-- A path with a NUL byte names nothing. -/
  | nulInPath
  /-- A path with a NUL byte at this offset cannot be handed to the permission call. -/
  | nulAt (offset : Nat)
  | notRegular
  | notDirectory (path : Path)
  | invalidText
  | other (text : Text)
deriving DecidableEq, Repr

namespace Fault

def kind : Fault → Text
  | .os errno => errno.kind
  | .nulInPath | .nulAt _ | .notRegular => "InvalidInput".toList
  | .notDirectory _ => "NotFound".toList
  | .invalidText => "InvalidData".toList
  | .other _ => "Other".toList

def message : Fault → Text
  | .os errno => errno.message
  | .nulInPath => "file name contained an unexpected NUL byte".toList
  | .nulAt offset => "nul byte found in provided data at position: ".toList ++ Text.decimal offset
  | .notRegular =>
    "the source path is neither a regular file nor a symlink to a regular file".toList
  | .notDirectory path => "not a directory: ".toList ++ path.display
  | .invalidText => "stream did not contain valid UTF-8".toList
  | .other text => text

def isMissing : Fault → Bool
  | .os errno => errno == .missing
  | .notDirectory _ => true
  | _ => false

end Fault
end FileShell
