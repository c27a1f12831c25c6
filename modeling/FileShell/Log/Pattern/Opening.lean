import FileShell.Log.Pattern.Manner
import FileShell.Text.Alphanumeric

namespace FileShell.Pattern

inductive Opening where
  | group (name : Option Text) (manner : Manner)
  | settings (manner : Manner)
deriving DecidableEq, Repr

namespace Opening

def isName : Text → Bool
  | [] => false
  | c :: rest =>
    (c == '_' || Text.isAlphabetic c) &&
      rest.all fun c => Text.isAlphanumeric c || "_.[]".toList.contains c

def named? (m : Manner) (t : Text) : Option (Opening × Text) :=
  match t.dropWhile (· ≠ '>') with
  | [] => none
  | _ :: rest =>
    let name := t.takeWhile (· ≠ '>')
    if isName name then some (.group (some name) m, rest) else none

/-- What begins behind an opening parenthesis, and the text behind it. -/
def ofText? (m : Manner) (t : Text) : Option (Opening × Text) :=
  match m.skip t with
  | '?' :: 'P' :: '<' :: rest | '?' :: '<' :: rest => named? m rest
  | '?' :: rest =>
    let settings := rest.takeWhile fun c => c ≠ ':' ∧ c ≠ ')'
    if !Manner.areSettings settings then none
    else
      match rest.drop settings.length with
      | ':' :: after => some (.group none (m.adjust settings), after)
      | ')' :: after =>
        if settings.isEmpty then none else some (.settings (m.adjust settings), after)
      | _ => none
  | rest => some (.group none m, rest)

end Opening
end FileShell.Pattern
