import FileShell.Command.Mode
import FileShell.Log
import FileShell.Session
import FileShell.Calendar.Zone
import FileShell.FileSystem.Change

namespace FileShell

inductive Command where
  | cd
  | chmod
  | cp
  | exit
  | help
  | ls
  | mkdir
  | mv
  | pwd
  | rm
  | search
deriving DecidableEq, Repr

namespace Command

def name : Command → String
  | cd => "cd"
  | chmod => "chmod"
  | cp => "cp"
  | exit => "exit"
  | help => "help"
  | ls => "ls"
  | mkdir => "mkdir"
  | mv => "mv"
  | pwd => "pwd"
  | rm => "rm"
  | search => "search"

def all : List Command := [cd, chmod, cp, exit, help, ls, mkdir, mv, pwd, rm, search]

def names : List Text := all.map (·.name.toList)

def ofName? (t : Text) : Option Command := all.find? fun c => c.name.toList == t

end Command

/-- How permission bits are changed. What a call does may hang on the calls before it. -/
structure PermissionControl where
  setMode : List (Path × Mode) → FileSystem → Path → Mode → Except Fault FileSystem

namespace PermissionControl

def native : PermissionControl := ⟨fun _ fs path mode => fs.changeMode path mode⟩

/-- Touches nothing, and fails each time with the same error if one is given. -/
def inert (errno : Option Errno) : PermissionControl :=
  ⟨fun _ fs _ _ =>
    match errno with
    | some e => .error (.os e)
    | none => .ok fs⟩

end PermissionControl

/-- What commands act on: the files, the session and the permission changes asked for so far. -/
structure World where
  files : FileSystem
  session : Session
  calls : List (Path × Mode)

inductive Flow where
  | stay
  | leave
deriving DecidableEq, Repr

inductive Verdict where
  | done (flow : Flow)
  | failed (failure : Failure)
  /-- A time that no calendar date stands for was to be written. -/
  | crashed
deriving DecidableEq, Repr

/-- What running a command yields: the state after it, its output, its verdict and its events. -/
structure Effect where
  world : World
  output : Text
  verdict : Verdict
  events : List Event

/-- What commands are given besides the state. -/
structure Surroundings where
  permissions : Option PermissionControl
  zone : Zone

namespace World

def finish (w : World) (output : Text) : Effect := ⟨w, output, .done .stay, []⟩

def refuse (w : World) (failure : Failure) : Effect := ⟨w, [], .failed failure, []⟩

/-- The effect of a call on files that belongs to a path. -/
def leave (w : World) (path : Path) (attempt : FileSystem.Attempt) : Effect :=
  let after := { w with files := attempt.files }
  match attempt.failure with
  | none => after.finish []
  | some fault => after.refuse (.files path fault)

def apply (w : World) (path : Path) (result : Except Fault FileSystem) : Effect :=
  w.leave path (.whole w.files result)

section Laws

variable (w : World) (path : Path) (files : FileSystem) (fault : Fault)

@[simp] theorem leave_done : w.leave path ⟨files, none⟩ = finish { w with files } [] := rfl

@[simp] theorem leave_failed :
    w.leave path ⟨files, some fault⟩ = refuse { w with files } (.files path fault) := rfl

theorem leave_of_done {attempt : FileSystem.Attempt} (h : attempt.failure = none) :
    w.leave path attempt = finish { w with files := attempt.files } [] := by
  simp only [leave, h]

theorem leave_of_failed {attempt : FileSystem.Attempt} {fault : Fault}
    (h : attempt.failure = some fault) :
    w.leave path attempt = refuse { w with files := attempt.files } (.files path fault) := by
  simp only [leave, h]

end Laws

end World
end FileShell
