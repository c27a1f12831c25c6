import FileShell.Log.Pattern.Manner
import FileShell.Text.Numeral

namespace FileShell.Pattern

inductive Symbol where
  | char (c : Char)
  /-- A character by two digits, which is a byte where symbols stand for bytes. -/
  | byte (c : Char)
  | any
  /-- The start or the end of the text, or of a line. -/
  | edge
  | wordEdge
  /-- The digits, the blanks or the characters of words, or all that are none of them. -/
  | sort (others : Bool)
deriving DecidableEq, Repr

namespace Symbol

def hexDigit? (c : Char) : Option Nat :=
  if Text.isDigit c then some (c.toNat - '0'.toNat)
  else if 'a' ≤ c ∧ c ≤ 'f' then some (c.toNat - 'a'.toNat + 10)
  else if 'A' ≤ c ∧ c ≤ 'F' then some (c.toNat - 'A'.toNat + 10)
  else none

/-- A number in so many digits of base sixteen, behind the digits `n`. -/
def number? (m : Manner) : Nat → Nat → Text → Option (Nat × Text)
  | 0, n, t => some (n, t)
  | width + 1, n, t =>
    match m.skip t with
    | [] => none
    | c :: rest => (hexDigit? c).bind fun d => number? m width (n * 16 + d) rest

def numbered? (m : Manner) (width : Nat) (t : Text) : Option (Char × Text) :=
  (number? m width 0 t).bind fun (n, rest) =>
    if n.isValidChar then some (Char.ofNat n, rest) else none

def letters : List (Char × Symbol) :=
  [('a', .char '\x07'), ('f', .char '\x0c'), ('t', .char '\t'), ('n', .char '\n'),
    ('r', .char '\r'), ('v', .char '\x0b'), ('A', .edge), ('z', .edge), ('b', .wordEdge),
    ('B', .wordEdge), ('<', .wordEdge), ('>', .wordEdge), ('d', .sort false), ('s', .sort false),
    ('w', .sort false), ('D', .sort true), ('S', .sort true), ('W', .sort true)]

/-- A symbol from behind its backslash, and the rest of the text. -/
def escaped? (m : Manner) : Text → Option (Symbol × Text)
  | [] => none
  | 'x' :: rest => (numbered? m 2 rest).map fun (c, after) => (.byte c, after)
  | 'u' :: rest => (numbered? m 4 rest).map fun (c, after) => (.char c, after)
  | 'U' :: rest => (numbered? m 8 rest).map fun (c, after) => (.char c, after)
  | c :: rest =>
    match letters.lookup c with
    | some symbol => some (symbol, rest)
    | none => if c.toNat < 0x80 && !c.isAlphanum then some (.char c, rest) else none

def ofText? (m : Manner) : Text → Option (Symbol × Text)
  | [] => none
  | '\\' :: rest => escaped? m rest
  | '.' :: rest => some (.any, rest)
  | '^' :: rest | '$' :: rest => some (.edge, rest)
  | c :: rest => some (.char c, rest)

/-- In a set only a backslash is special. -/
def ofSetText? (m : Manner) : Text → Option (Symbol × Text)
  | [] => none
  | '\\' :: rest => escaped? m rest
  | c :: rest => some (.char c, rest)

/-- A symbol is refused that could match bytes which are no text, or that needs tables of letters,
such as the digits of all scripts. -/
def isAllowed (m : Manner) : Symbol → Bool
  | .char _ => m.knowsLetters
  | .byte c => m.knowsLetters && (!m.bytewise || c.toNat < 0x80)
  | .any => !m.bytewise
  | .edge => true
  | .wordEdge => m.bytewise
  | .sort others => m.bytewise && !others

def isAllowedInSet (m : Manner) : Symbol → Bool
  | .char c | .byte c => m.knowsLetters && (!m.bytewise || c.toNat < 0x80)
  | .sort others => m.bytewise && !others
  | .any | .edge | .wordEdge => false

def char? : Symbol → Option Char
  | .char c | .byte c => some c
  | _ => none

end Symbol
end FileShell.Pattern
