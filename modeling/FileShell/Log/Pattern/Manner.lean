import FileShell.Text.Blank
import FileShell.Text.Utf8

namespace FileShell.Pattern

/-- The manner in which a pattern is read. Settings change it from where they stand to the end of
the group that they are in. -/
structure Manner where
  /-- Letters stand for themselves in either case. -/
  ignoresCase : Bool
  /-- Symbols stand for bytes and not for characters. -/
  bytewise : Bool
  /-- Blanks do not count, nor does what a number sign begins up to the end of its line. -/
  spaced : Bool
deriving DecidableEq, Repr

namespace Manner

def plain : Manner := ⟨false, false, false⟩

def set (on : Bool) (m : Manner) : Char → Manner
  | 'i' => { m with ignoresCase := on }
  | 'u' => { m with bytewise := !on }
  | 'x' => { m with spaced := on }
  | _ => m

/-- Settings are turned on before a minus and off behind it. -/
def adjust (m : Manner) (settings : Text) : Manner :=
  (settings.dropWhile (· ≠ '-')).foldl (set false)
    ((settings.takeWhile (· ≠ '-')).foldl (set true) m)

/-- Whether settings are all known, none of them twice, and a minus stands before one of them. -/
def areSettings (t : Text) : Bool :=
  t.all ("imsUuRx-".toList.contains ·) && t.eraseDups.length == t.length && t.getLast? != some '-'

def afterBlanks (inComment : Bool) : Text → Text
  | [] => []
  | c :: rest =>
    if inComment then afterBlanks (c ≠ '\n') rest
    else if c = '#' then afterBlanks true rest
    else if Text.isBlank c then afterBlanks false rest
    else c :: rest

/-- A rest of a pattern from the first character on that counts. -/
def skip (m : Manner) (t : Text) : Text := if m.spaced then afterBlanks false t else t

/-- The character that decides about the one before it: the first that counts, where a number sign
does not begin a comment but is passed over itself. -/
def next? (m : Manner) (t : Text) : Option Char :=
  if m.spaced then
    match t.dropWhile Text.isBlank with
    | '#' :: rest => (rest.dropWhile Text.isBlank).head?
    | rest => rest.head?
  else t.head?

/-- Without tables of letters, the case of characters cannot be ignored, that of bytes can. -/
def knowsLetters (m : Manner) : Bool := m.bytewise || !m.ignoresCase

end Manner
end FileShell.Pattern
