import FileShell.FileSystem.Fault

namespace FileShell

inductive Failure where
  | unknownCommand (name : Text)
  | usage (form : Text)
  | pathNotFound (path : Path)
  | directoryNotFound (path : Path)
  | notADirectory (path : Path)
  | invalidMode (text : Text)
  /-- An operation on a path failed. -/
  | files (path : Path) (fault : Fault)
  /-- The output was refused. -/
  | stream (fault : Fault)
deriving DecidableEq, Repr

def Failure.message : Failure → Text
  | .unknownCommand name =>
    "Unknown command: ".toList ++ name ++ ". Type \x27help\x27 for list.".toList
  | .usage form => "usage: ".toList ++ form
  | .pathNotFound path => "path not found: ".toList ++ path.display
  | .directoryNotFound path => "directory not found: ".toList ++ path.display
  | .notADirectory path => "not a directory: ".toList ++ path.display
  | .invalidMode text =>
    "invalid mode \x27".toList ++ text ++
      "\x27: expected an octal value between 0 and 7777".toList
  | .files path fault => path.display ++ ": ".toList ++ fault.message
  | .stream fault => "IO error: ".toList ++ fault.message

/-- What the shell writes when a command fails: the command's name first, unless it has none. -/
def Failure.report (command : Text) : Failure → Text
  | .unknownCommand name => (Failure.unknownCommand name).message
  | failure => command ++ ": ".toList ++ failure.message

end FileShell
