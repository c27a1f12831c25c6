import FileShell.Text.Utf8

namespace FileShell.Text

/-- The pieces between separators; there is one more of them than there are separators. -/
def cutAt (separator : Char) (t : Text) : List Text :=
  t.foldr (fun c pieces =>
    match pieces with
    | [] => [[c]]
    | piece :: rest => if c = separator then [] :: piece :: rest else (c :: piece) :: rest) [[]]

/-- Where a word stands last in a text, in bytes. -/
def lastAt? (word : Text) : Text → Option Nat
  | [] => if word = [] then some 0 else none
  | c :: rest =>
    match lastAt? word rest with
    | some found => some ((Utf8.encodeChar c).length + found)
    | none => if word <+: c :: rest then some 0 else none

end FileShell.Text
