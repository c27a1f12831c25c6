import FileShell.Text.Numeral
import FileShell.Text.Pieces

namespace FileShell

/-- Seconds that local time is ahead of universal time. -/
structure Zone where
  ahead : Int
deriving DecidableEq, Repr

namespace Zone

def universal : Zone := ⟨0⟩

def isLetter (c : Char) : Bool := ('a' ≤ c && c ≤ 'z') || ('A' ≤ c && c ≤ 'Z')

def isNameChar (c : Char) : Bool := isLetter c || Text.isDigit c || c == '+' || c == '-'

def isName (t : Text) : Bool := 3 ≤ t.length && t.length ≤ 7 && t.all isNameChar

/-- What stands behind a zone's name, which is letters or stands between angle brackets. -/
def afterName (t : Text) : Option Text :=
  match t with
  | '<' :: rest =>
    match rest.dropWhile (· ≠ '>') with
    | _ :: distance => if isName (rest.takeWhile (· ≠ '>')) then some distance else none
    | [] => none
  | _ => if isName (t.takeWhile isLetter) then some (t.dropWhile isLetter) else none

/-- A distance of less than a day, from its numbers of hours, minutes and seconds. -/
def seconds? (t : Text) : Option Nat := do
  let numbers ← (Text.cutAt ':' t).mapM Text.natural?
  match numbers with
  | [h] => if h < 24 then some (h * 3600) else none
  | [h, m] => if h < 24 ∧ m < 60 then some (h * 3600 + m * 60) else none
  | [h, m, s] => if h < 24 ∧ m < 60 ∧ s < 60 then some (h * 3600 + m * 60 + s) else none
  | _ => none

def isSpace (c : Char) : Bool :=
  c == ' ' || c == '\t' || c == '\n' || c == '\x0c' || c == '\r'

def trim (t : Text) : Text := ((t.dropWhile isSpace).reverse.dropWhile isSpace).reverse

/-- The zone that a description gives, in which `EST5` is five hours behind universal time; one that
gives none is universal time. -/
def ofText (t : Text) : Zone :=
  match afterName (trim t) with
  | some ('-' :: rest) => ⟨((seconds? rest).getD 0 : Nat)⟩
  | some ('+' :: rest) => ⟨-((seconds? rest).getD 0 : Nat)⟩
  | some rest => ⟨-((seconds? rest).getD 0 : Nat)⟩
  | none => universal

end Zone
end FileShell
