import FileShell.Flags
import FileShell.Log.Filter
import FileShell.Log.Line
import FileShell.Shell

namespace FileShell

structure Invocation where
  args : List Text
  environment : Environment
  input : Bytes
  /-- The home that the user's account names. -/
  account : Home
deriving DecidableEq, Repr

namespace Invocation

/-- What a program leaves: its exit code, its two streams and the files. -/
structure Result where
  code : Nat
  out : Bytes
  err : Text
  files : FileSystem

def version : Text := "fsh 0.1.0\n".toList

/-- The variable for the home goes before the account, unless it is empty. -/
def home (account : Home) (environment : Environment) : Home :=
  match environment.lookup "HOME".toList with
  | none | some [] => account
  | some t => .ofPath (.ofText t)

def zone (environment : Environment) : Zone :=
  ((environment.lookup "TZ".toList).map Zone.ofText).getD .universal

def filter (environment : Environment) (flags : Flags) : LogFilter :=
  ((environment.lookup "FSH_LOG".toList).bind LogFilter.ofText?).getD
    (.standard (flags.isSet .debug))

/-- Starts in the directory that the flags give, or else in the one the program is in. -/
def start (fs : FileSystem) (home : Home) (flags : Flags) : Except ShellFailure Session :=
  match flags.value .directory with
  | some dir =>
    match Session.start fs home (.ofText dir) with
    | .ok session => .ok session
    | .error fault => .error (.startDirectory (dir ++ ": ".toList ++ fault.message))
  | none =>
    match Session.start fs home fs.base.path with
    | .ok session => .ok session
    | .error fault => .error (.stream fault)

/-- The log has colours unless a variable says otherwise; an empty one says nothing. -/
def colorsLog (environment : Environment) : Bool :=
  ((environment.lookup "NO_COLOR".toList).getD []).isEmpty

def shown (environment : Environment) (flags : Flags) : Notice → Text
  | .event e =>
    if (filter environment flags).shows e then e.alignedLine (colorsLog environment) else []
  | .report text => text

def run (fs : FileSystem) (i : Invocation) : Result :=
  match Flags.none.parse i.args with
  | (_, some fault) => ⟨1, [], (ShellFailure.flag fault.message).lastWords, fs⟩
  | (flags, none) =>
    if flags.isSet .help then ⟨0, Utf8.encode Flags.help, [], fs⟩
    else if flags.isSet .version then ⟨0, Utf8.encode version, [], fs⟩
    else
      match start fs (home i.account i.environment) flags with
      | .error failure => ⟨1, [], failure.lastWords, fs⟩
      | .ok session =>
        let settings : Settings :=
          ⟨⟨some .native, zone i.environment⟩, .plain, flags.isSet .quiet⟩
        let shell := Shell.ofWorld ⟨fs, session, []⟩ .unlimited .unlimited
        let outcome := shell.run settings (.ofBytes i.input none)
        let err := outcome.shell.notices.flatMap (shown i.environment flags)
        let files := outcome.shell.world.files
        match outcome.ending with
        | .done => ⟨0, outcome.shell.out.written, err, files⟩
        | .failed failure => ⟨1, outcome.shell.out.written, err ++ failure.lastWords, files⟩
        | .crashed => ⟨101, outcome.shell.out.written, err, files⟩

end Invocation
end FileShell
