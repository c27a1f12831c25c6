import FileShell.Color
import FileShell.Text.Runs

namespace FileShell

structure Highlighter where
  enabled : Bool
deriving DecidableEq, Repr

namespace Highlighter

def plain : Highlighter := ⟨false⟩

def forEnvironment (env : Environment) : Highlighter := ⟨Color.isSupported env⟩

def paint (h : Highlighter) (s : Style) (t : Text) : Text := if h.enabled then s.wrap t else t

/-- Colours the first word and every later word that starts with a dash. -/
def paintRuns (seenCommand : Bool) : List Text.Run → Text
  | [] => []
  | run :: rest =>
    if !run.isWord then run.text ++ paintRuns seenCommand rest
    else if !seenCommand then Style.command.wrap run.text ++ paintRuns true rest
    else if run.text.head? = some '-' then Style.flag.wrap run.text ++ paintRuns true rest
    else run.text ++ paintRuns true rest

def command (h : Highlighter) (line : Text) : Text :=
  if h.enabled then paintRuns false (Text.runs line) else line

def error (h : Highlighter) (t : Text) : Text := h.paint .error t

def path (h : Highlighter) (t : Text) : Text := h.paint .path t

def promptEnd : Text := " > ".toList

/-- A prompt with the directory in it coloured. -/
def prompt (h : Highlighter) (t : Text) : Text :=
  if promptEnd.isSuffixOf t then h.path (t.take (t.length - promptEnd.length)) ++ promptEnd else t

end Highlighter
end FileShell
