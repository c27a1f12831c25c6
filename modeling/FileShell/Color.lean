import FileShell.Search

namespace FileShell

abbrev Environment := List (Text × Text)

namespace Color

def lookup (env : Environment) (name : String) : Option Text := env.lookup name.toList

/-- Small letters for capitals, among them the two foreign ones that have ASCII small letters. -/
def lower (c : Char) : Text :=
  if 'A' ≤ c ∧ c ≤ 'Z' then [Char.ofNat (c.toNat + 0x20)]
  else if c.toNat = 0x212A then ['k']
  else if c.toNat = 0x130 then ['i', Char.ofNat 0x307]
  else [c]

def colorTerminals : List String :=
  ["xterm-truecolor", "konsole", "tmux", "screen-truecolor", "alacritty", "kitty", "terminator",
    "terminology", "eterm", "rxvt-unicode", "xterm-ghostty", "vte", "termious", "256", "color",
    "ansi", "xterm", "screen"]

def colorPrograms : List String := ["iTerm.app", "Apple_Terminal", "Hyper"]

def mentions (value : Option Text) (words : List String) : Bool :=
  words.any fun w => Text.occursIn w.toList (value.getD [])

def isSupported (env : Environment) : Bool :=
  if (lookup env "NO_COLOR").isSome || lookup env "CLICOLOR" == some ['0'] then false
  else
    mentions (lookup env "COLORTERM") ["truecolor", "24bit"] ||
    mentions ((lookup env "TERM").map (·.flatMap lower)) colorTerminals ||
    colorPrograms.any (fun p => lookup env "TERM_PROGRAM" == some p.toList) ||
    lookup env "CLICOLOR_FORCE" == some ['1']

end Color

inductive Style where
  | command
  | flag
  | error
  | path
deriving DecidableEq, Repr

namespace Style

def escape (code : String) : Text := '\x1b' :: '[' :: code.toList ++ ['m']

def opening : Style → Text
  | command => escape "36" ++ escape "1"
  | flag => escape "33"
  | error => escape "31" ++ escape "1"
  | path => escape "32"

def closing : Text := escape "0"

def wrap (s : Style) (t : Text) : Text := s.opening ++ t ++ closing

end Style
end FileShell
