import FileShell.Text.Numeral

namespace FileShell

inductive Flag where
  | debug
  | directory
  | help
  | plain
  | quiet
  | version
deriving DecidableEq, Repr

namespace Flag

/-- All flags in the order of their names, which is the order of the help text. -/
def all : List Flag := [debug, directory, help, plain, quiet, version]

def name : Flag → String
  | debug => "debug"
  | directory => "directory"
  | help => "help"
  | plain => "plain"
  | quiet => "quiet"
  | version => "version"

def short : Flag → String
  | debug => "-d"
  | directory => "-C"
  | help => "-h"
  | plain => "-p"
  | quiet => "-q"
  | version => "-v"

def long (f : Flag) : String := "--" ++ f.name

def description : Flag → String
  | debug => "Enable debug logging"
  | directory => "Start in the given directory"
  | help => "Print this help message"
  | plain => "Disable line editing and colors"
  | quiet => "Skip the command banner and farewell"
  | version => "Show version information"

def takesValue : Flag → Bool
  | directory => true
  | _ => false

def ofArgument? (arg : Text) : Option Flag :=
  all.find? fun f => arg == f.short.toList || arg == f.long.toList

end Flag

inductive FlagFault where
  | unknown (arg : Text)
  | noValue (arg : Text)
deriving DecidableEq, Repr

def FlagFault.message : FlagFault → Text
  | .unknown arg => "Unknown flag: ".toList ++ arg
  | .noValue arg => "Flag ".toList ++ arg ++ " requires a value".toList

/-- The flags set so far with their values; a switch has the value `true`. -/
structure Flags where
  value : Flag → Option Text

namespace Flags

def none : Flags := ⟨fun _ => .none⟩

def set (flags : Flags) (f : Flag) (value : Text) : Flags :=
  ⟨fun g => if g = f then some value else flags.value g⟩

def isSet (flags : Flags) (f : Flag) : Bool := (flags.value f).isSome

def switchedOn : Text := "true".toList

/-- Reads arguments one after another until one is at fault; what was set before stays set. -/
def parse (flags : Flags) : List Text → Flags × Option FlagFault
  | [] => (flags, .none)
  | [arg] =>
    match Flag.ofArgument? arg with
    | .none => (flags, some (.unknown arg))
    | some f =>
      if f.takesValue then (flags, some (.noValue arg)) else (flags.set f switchedOn, .none)
  | arg :: next :: rest =>
    match Flag.ofArgument? arg with
    | .none => (flags, some (.unknown arg))
    | some f =>
      if f.takesValue then (flags.set f next).parse rest
      else (flags.set f switchedOn).parse (next :: rest)

def helpLine (f : Flag) : Text :=
  "  ".toList ++ f.short.toList ++ ", ".toList ++ Text.padRight 15 ' ' f.long.toList ++
    ' ' :: f.description.toList ++ ['\n']

def help : Text :=
  "Usage: fsh [OPTIONS]\n\nOptions:\n".toList ++ Flag.all.flatMap helpLine

end Flags
end FileShell
