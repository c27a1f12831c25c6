import FileShell.FileSystem.Fault
import FileShell.Text.Escaped

namespace FileShell

namespace Fault

def record (title : String) (fields : List (String × Text)) : Text :=
  let shown := fields.map fun (name, value) => name.toList ++ ": ".toList ++ value
  title.toList ++ " \x7b ".toList ++ Text.joinWith ", ".toList shown ++ " \x7d".toList

/-- The fault with its kind and its text, as a program that it ends shows it. -/
def spelled (f : Fault) : Text :=
  match f with
  | .os errno =>
    record "Os" [("code", Text.decimalInt errno.code), ("kind", errno.kind),
      ("message", Text.quoted errno.text)]
  | .nulInPath | .notRegular | .invalidText =>
    record "Error" [("kind", f.kind), ("message", Text.quoted f.message)]
  | .nulAt _ | .notDirectory _ | .other _ =>
    record "Custom" [("kind", f.kind), ("error", Text.quoted f.message)]

end Fault

inductive ReadingFault where
  | endOfInput
  | interrupted
  | fault (fault : Fault)
deriving DecidableEq, Repr

def ReadingFault.message : ReadingFault → Text
  | .endOfInput => "EOF".toList
  | .interrupted => "Interrupted".toList
  | .fault f => f.message

def ReadingFault.spelled : ReadingFault → Text
  | .endOfInput => "Eof".toList
  | .interrupted => "Interrupted".toList
  | .fault f => "Io(".toList ++ f.spelled ++ [')']

/-- Why no handler for interrupts could be set. -/
inductive HandlerFault where
  | alreadySet
  | system
deriving DecidableEq, Repr

def HandlerFault.message : HandlerFault → Text
  | .alreadySet => "Ctrl-C error: Ctrl-C signal handler already registered".toList
  | .system => "Ctrl-C error: Unexpected system error".toList

inductive ShellFailure where
  | reading (fault : ReadingFault)
  | stream (fault : Fault)
  | flag (text : Text)
  | handler (fault : HandlerFault)
  | startDirectory (text : Text)
deriving DecidableEq, Repr

namespace ShellFailure

def message : ShellFailure → Text
  | reading fault => "Readline error: ".toList ++ fault.message
  | stream fault => "IO error: ".toList ++ fault.message
  | flag text => "Flag error: ".toList ++ text
  | handler fault => "Ctrl-C error: ".toList ++ fault.message
  | startDirectory text => "Invalid start directory: ".toList ++ text

def label : ShellFailure → String
  | reading _ => "Readline"
  | stream _ => "Io"
  | flag _ => "FlagError"
  | handler _ => "CtrlC"
  | startDirectory _ => "InvalidStartDir"

def inside : ShellFailure → Text
  | reading fault => fault.spelled
  | stream fault => fault.spelled
  | flag text | startDirectory text => Text.quoted text
  | handler fault => Text.quoted fault.message

/-- The last line of a program that a failure ends. -/
def lastWords (f : ShellFailure) : Text :=
  "Error: ".toList ++ f.label.toList ++ '(' :: f.inside ++ [')', '\n']

end ShellFailure
end FileShell
