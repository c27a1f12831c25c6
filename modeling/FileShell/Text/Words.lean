import FileShell.Text.Blank
import FileShell.Text.Utf8

namespace FileShell.Text

/-- The word collected so far, last character first, as a list of at most one word. -/
def finished (word : Text) : List Text := if word.isEmpty then [] else [word.reverse]

def wordsFrom (quoted : Bool) (word : Text) : Text → List Text
  | [] => finished word
  | c :: rest =>
    if c = '"' then wordsFrom (!quoted) word rest
    else if !quoted && isBlank c then finished word ++ wordsFrom quoted [] rest
    else wordsFrom quoted (c :: word) rest

/-- The words of a command line. Blanks separate them unless they stand between double quotes; the
quotes are dropped, an open one runs to the end of the line, and empty words do not count. -/
def words (line : Text) : List Text := wordsFrom false [] line

end FileShell.Text
