import FileShell.FileSystem.Node
import FileShell.Text.Numeral

namespace FileShell.Mode

def octalDigit? (c : Char) : Option Nat :=
  if '0' ≤ c ∧ c ≤ '7' then some (c.toNat - '0'.toNat) else none

def greatest : Nat := 0o7777

def value? (digits : Text) : Option Nat := do
  let values ← digits.mapM octalDigit?
  return values.foldl (fun n d => n * 8 + d) 0

/-- One or more octal digits, behind at most one plus sign, that make no more than twelve bits. -/
def parse? (t : Text) : Option Mode :=
  let digits :=
    match t with
    | '+' :: rest => rest
    | _ => t
  if digits.isEmpty then none
  else
    match value? digits with
    | some n => if n ≤ greatest then some (BitVec.ofNat 12 n) else none
    | none => none

end FileShell.Mode
