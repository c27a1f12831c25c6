import FileShell.Command.Basic
import FileShell.Text.Pieces
import FileShell.Text.Runs

namespace FileShell

structure Candidate where
  display : Text
  replacement : Text
deriving DecidableEq, Repr

/-- What a completer knows: command names, the home and the directory that paths start from. -/
structure Completer where
  commands : List Text
  home : Home
  base : Path
deriving DecidableEq, Repr

namespace Completer

def moved (c : Completer) (dir : Path) : Completer := { c with base := dir }

/-- The first so many bytes of a text, if a character ends there. -/
def upTo : Nat → Text → Option Text
  | 0, _ => some []
  | _ + 1, [] => none
  | n + 1, c :: rest =>
    let size := (Utf8.encodeChar c).length
    if size ≤ n + 1 then (upTo (n + 1 - size) rest).map (c :: ·) else none
termination_by _ t => t.length

def insertSorted (name : Text) : List Text → List Text
  | [] => [name]
  | first :: rest =>
    if name = first then first :: rest
    else if name < first then name :: first :: rest
    else first :: insertSorted name rest

def sortNames (names : List Text) : List Text := names.foldr insertSorted []

def commandCandidates (c : Completer) (word : Text) : List Candidate :=
  ((sortNames c.commands).filter word.isPrefixOf).map fun name => ⟨name, name ++ [' ']⟩

/-- A word up to its last slash, and what stands behind it. -/
def splitAtSlash (word : Text) : Text × Text :=
  let name := (word.reverse.takeWhile (· ≠ '/')).reverse
  (word.take (word.length - name.length), name)

def isHidden (name : Text) : Bool := name.head? == some '.'

/-- Hidden names are offered only for a word that asks for one. -/
def offers (typed name : Text) : Bool :=
  typed.isPrefixOf name && (!isHidden name || isHidden typed)

def pathCandidate (typedDir name : Text) (isDir : Bool) : Candidate :=
  if isDir then ⟨name ++ ['/'], typedDir ++ name ++ ['/']⟩
  else ⟨name, typedDir ++ name ++ [' ']⟩

def searched (c : Completer) (typedDir : Text) : Path :=
  if typedDir.isEmpty then c.base else c.base.join (c.home.expand typedDir)

def pathCandidates (c : Completer) (fs : FileSystem) (word : Text) : List Candidate :=
  let (typedDir, typed) := splitAtSlash word
  let dir := c.searched typedDir
  match fs.list dir with
  | .error _ => []
  | .ok entries =>
    let found := entries.filterMap fun (name, _) =>
      match Utf8.decode? name with
      | some text =>
        if offers typed text then
          some (pathCandidate typedDir text (fs.isDirectory (dir.join ⟨name⟩)))
        else none
      | none => none
    found.mergeSort fun a b => Utf8.precedes a.display b.display

def endsInBlank (t : Text) : Bool := t.getLast?.any Text.isBlank

/-- The words of a line, with an empty one at its end if a blank stands there. -/
def wordsToCursor (line : Text) : List Text :=
  Text.plainWords line ++ if endsInBlank line then [[]] else []

/-- Where in the line the word before the cursor starts, in bytes, and what can stand there. -/
def complete (c : Completer) (fs : FileSystem) (line : Text) : Nat × List Candidate :=
  let cursor := (Utf8.encode line).length
  match (wordsToCursor line).reverse with
  | [] => (0, c.commandCandidates [])
  | [word] => ((word.lastAt? line).getD 0, c.commandCandidates word)
  | word :: _ :: _ =>
    (if word.isEmpty then cursor else (word.lastAt? line).getD cursor, c.pathCandidates fs word)

/-- Completion at a position in bytes, which must be between characters of the line. -/
def completeAt (c : Completer) (fs : FileSystem) (line : Text) (pos : Nat) :
    Option (Nat × List Candidate) :=
  (upTo pos line).map (c.complete fs)

end Completer
end FileShell
