import FileShell.Text.Utf8

namespace FileShell.Text

def ofNat (base n : Nat) : Text := Nat.toDigits base n

def decimal (n : Nat) : Text := ofNat 10 n

def octal (n : Nat) : Text := ofNat 8 n

def hexadecimal (n : Nat) : Text := ofNat 16 n

def decimalInt : Int → Text
  | .ofNat n => decimal n
  | .negSucc n => '-' :: decimal (n + 1)

def isDigit (c : Char) : Bool := '0' ≤ c && c ≤ '9'

def natural? (t : Text) : Option Nat :=
  if t.isEmpty || !t.all isDigit then none
  else some (t.foldl (fun n c => n * 10 + (c.toNat - '0'.toNat)) 0)

def padLeft (width : Nat) (fill : Char) (t : Text) : Text :=
  List.replicate (width - t.length) fill ++ t

def padRight (width : Nat) (fill : Char) (t : Text) : Text :=
  t ++ List.replicate (width - t.length) fill

def joinWith (separator : Text) (parts : List Text) : Text :=
  (parts.intersperse separator).flatten

end FileShell.Text
