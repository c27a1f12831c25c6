import FileShell.Text.Blank
import FileShell.Text.Utf8

namespace FileShell.Text

structure Run where
  isWord : Bool
  text : Text
deriving DecidableEq, Repr

/-- Puts a character in front of runs: into the first one if it is of the same kind. -/
def Run.prepend (c : Char) : List Run → List Run
  | [] => [⟨!isBlank c, [c]⟩]
  | r :: rest =>
    if r.isWord = !isBlank c then ⟨r.isWord, c :: r.text⟩ :: rest
    else ⟨!isBlank c, [c]⟩ :: r :: rest

def runs (t : Text) : List Run := t.foldr Run.prepend []

/-- The words of a text that knows no quotes. -/
def plainWords (t : Text) : List Text :=
  ((runs t).filter (·.isWord)).map (·.text)

end FileShell.Text
