import FileShell.Shell.Failure

namespace FileShell

inductive Reading where
  | line (text : Text)
  | interrupted
  | endOfInput
  | failure (failure : ShellFailure)
  /-- The reading ends the program. -/
  | crash
deriving DecidableEq, Repr

/-- What the successive readings of a source yield; past their end it yields the end of input. -/
structure LineSource where
  rendersPrompt : Bool
  readings : List Reading
deriving DecidableEq, Repr

namespace LineSource

def newline : UInt8 := 0x0A

def splitLines : Bytes → List Bytes × Bytes
  | [] => ([], [])
  | b :: rest =>
    let (lines, tail) := splitLines rest
    if b = newline then ([b] :: lines, tail)
    else
      match lines with
      | [] => ([], b :: tail)
      | first :: more => ((b :: first) :: more, tail)

/-- The text without the line ends it ends in. -/
def trimLineEnds (t : Text) : Text :=
  (t.reverse.dropWhile fun c => c = '\n' || c = '\r').reverse

/-- Takes away the newline at the end, and a carriage return before it. -/
def chomp (t : Text) : Text :=
  match t.reverse with
  | '\n' :: '\r' :: rest => rest.reverse
  | '\n' :: rest => rest.reverse
  | _ => t

def plainLine (bs : Bytes) : Reading := .line (trimLineEnds (Utf8.decode bs))

/-- Bytes read line by line, up to their end or to a fault that comes in its place. -/
def ofBytes (input : Bytes) (fault : Option Fault) : LineSource :=
  let (lines, tail) := splitLines input
  let last :=
    match fault with
    | some f => [.failure (.stream f)]
    | none => if tail.isEmpty then [] else [plainLine tail]
  ⟨false, lines.map plainLine ++ last⟩

def readingsTo : List Reading → Option (List Text × Option ShellFailure)
  | [] | .endOfInput :: _ => some ([], none)
  | .interrupted :: _ => some ([], some (.reading .interrupted))
  | .failure f :: _ => some ([], some f)
  | .crash :: _ => none
  | .line t :: rest => (readingsTo rest).map fun (lines, failure) => (t :: lines, failure)

/-- The lines up to the end of input or the first reading that is none, unless a reading crashes. -/
def lines (source : LineSource) : Option (List Text × Option ShellFailure) :=
  readingsTo source.readings

end LineSource
end FileShell
