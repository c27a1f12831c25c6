import FileShell.Command.Failure
import FileShell.Text.Escaped

namespace FileShell

inductive Level where
  | error
  | warn
  | info
  | debug
  | trace
deriving DecidableEq, Repr

namespace Level

def rank : Level → Nat
  | error => 1
  | warn => 2
  | info => 3
  | debug => 4
  | trace => 5

def name : Level → String
  | error => "ERROR"
  | warn => "WARN"
  | info => "INFO"
  | debug => "DEBUG"
  | trace => "TRACE"

end Level

inductive Event where
  | dispatching (command : Text) (args : List Text)
  | changedDirectory (dir : Path)
  | skippedDirectory (dir : Path) (fault : Fault)
  | commandFailed (command : Text) (failure : Failure)
  | historyNotLoaded (path : Path) (fault : Fault)
  | historyNotSaved (path : Path) (fault : Fault)
deriving DecidableEq, Repr

namespace Event

/-- The part of the program that an event arises in. -/
def target : Event → String
  | dispatching _ _ => "fsh::core::commands"
  | changedDirectory _ => "fsh::core::commands::navigation"
  | skippedDirectory _ _ => "fsh::core::commands::search"
  | commandFailed _ _ => "fsh::shell"
  | historyNotLoaded _ _ | historyNotSaved _ _ => "fsh::input::reader"

def level : Event → Level
  | dispatching _ _ | commandFailed _ _ => .debug
  | changedDirectory _ => .info
  | skippedDirectory _ _ | historyNotLoaded _ _ | historyNotSaved _ _ => .warn

def message : Event → String
  | dispatching _ _ => "dispatching"
  | changedDirectory _ => "changed directory"
  | skippedDirectory _ _ => "skipping unreadable directory"
  | commandFailed _ _ => "command failed"
  | historyNotLoaded _ _ => "could not load history"
  | historyNotSaved _ _ => "could not save history"

def fields : Event → List (String × Text)
  | dispatching command args =>
    [("command", Text.quoted command), ("args", Text.quotedList args)]
  | changedDirectory dir => [("dir", dir.display)]
  | skippedDirectory dir fault => [("dir", dir.display), ("error", fault.message)]
  | commandFailed command failure =>
    [("command", Text.quoted command), ("error", failure.message)]
  | historyNotLoaded path fault | historyNotSaved path fault =>
    [("path", path.display), ("error", fault.message)]

/-- The names that a filter can ask for; the message counts as a field. -/
def fieldNames (e : Event) : List String := "message" :: e.fields.map (·.1)

end Event
end FileShell
