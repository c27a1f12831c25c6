import FileShell.Text.Numeral
import FileShell.Text.Unprintable

namespace FileShell.Text

/-- A code point by its number in base sixteen, between a backslash, `u` and braces. -/
def numbered (c : Char) : Text :=
  "\\u\x7b".toList ++ hexadecimal c.toNat ++ ['\x7d']

def escapedChar (c : Char) : Text :=
  if c = '\x00' then "\\0".toList
  else if c = '\t' then "\\t".toList
  else if c = '\r' then "\\r".toList
  else if c = '\n' then "\\n".toList
  else if c = '"' then "\\\"".toList
  else if c = '\\' then "\\\\".toList
  else if isUnprintable c then numbered c
  else [c]

/-- A text between double quotes on one line: the quote and the backslash take a backslash, the
common controls a letter, and every other character that does not print its number. -/
def quoted (t : Text) : Text := '"' :: t.flatMap escapedChar ++ ['"']

def quotedList (ts : List Text) : Text :=
  '[' :: joinWith ", ".toList (ts.map quoted) ++ [']']

end FileShell.Text
