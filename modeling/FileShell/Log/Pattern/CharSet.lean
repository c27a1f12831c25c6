import FileShell.Log.Pattern.Outline
import FileShell.Log.Pattern.Symbol

namespace FileShell.Pattern

/-- A set whose closing bracket has not come yet. -/
structure OpenSet where
  /-- What stands before the last operator. -/
  operand : Option Outline
  /-- The parts since, last one first. -/
  parts : List Outline
  /-- Nothing but dashes has come so far. -/
  fresh : Bool
deriving Repr

namespace OpenSet

def start : OpenSet := ⟨none, [], true⟩

def add (s : OpenSet) (part : Outline) : OpenSet := ⟨s.operand, part :: s.parts, false⟩

def content (s : OpenSet) : Outline :=
  let last := Outline.ofParts s.parts.reverse
  match s.operand with
  | none => last
  | some operand => .row [operand, last]

def operated (s : OpenSet) : OpenSet := ⟨some s.content, [], false⟩

/-- At the start of a set dashes stand for themselves, and so does a closing bracket. -/
def takesPlainly (s : OpenSet) (c : Char) : Bool :=
  s.fresh && (c == '-' || (c == ']' && s.parts.isEmpty))

def addPlain (s : OpenSet) (c : Char) : OpenSet := { s.add .atom with fresh := c == '-' }

end OpenSet

namespace CharSet

def names : List String :=
  ["alnum", "alpha", "ascii", "blank", "cntrl", "digit", "graph", "lower", "print", "punct",
    "space", "upper", "word", "xdigit"]

/-- A set that is given by name, as in `[:alpha:]`: whether it has all others, and what follows. -/
def named? : Text → Option (Bool × Text)
  | '[' :: ':' :: rest =>
    let others := rest.head? == some '^'
    let body := if others then rest.tail else rest
    match body.dropWhile (· ≠ ':') with
    | ':' :: ']' :: after =>
      if names.any (·.toList == body.takeWhile (· ≠ ':')) then some (others, after) else none
    | _ => none
  | _ => none

/-- The text behind an opening bracket and a caret. The bytes that are not in a set need not be text,
so among bytes a caret is refused. -/
def inside? (m : Manner) (t : Text) : Option Text :=
  match m.skip t with
  | '^' :: rest => if m.bytewise then none else some rest
  | rest => some rest

/-- The text behind one symbol of a set, or behind a range between two. -/
def afterItem? (m : Manner) (t : Text) : Option Text := do
  let (low, rest) ← Symbol.ofSetText? m t
  if !low.isAllowedInSet m then none
  match m.skip rest with
  | '-' :: behind =>
    if m.next? behind = some ']' ∨ m.next? behind = some '-' then some ('-' :: behind)
    else
      let (high, after) ← Symbol.ofSetText? m (m.skip behind)
      if high.isAllowedInSet m ∧ (← low.char?) ≤ (← high.char?) then some after else none
  | rest => some rest

/-- Reads a set to its end and on to the end of those around it; each step takes some text. -/
def readOn (m : Manner) : Nat → OpenSet → List OpenSet → Text → Option (Outline × Text)
  | 0, _, _, _ => none
  | fuel + 1, s, outer, t => do
    let c :: rest := m.skip t | none
    if s.takesPlainly c then
      if (Symbol.char c).isAllowedInSet m then readOn m fuel (s.addPlain c) outer rest else none
    else
      match c, rest with
      | ']', rest =>
        match outer with
        | [] => some (.around s.content, rest)
        | parent :: outer => readOn m fuel (parent.add (.around s.content)) outer rest
      | '[', rest =>
        match named? (c :: rest) with
        | some (others, after) =>
          if m.knowsLetters ∧ (!m.bytewise ∨ !others) then readOn m fuel (s.add .atom) outer after
          else none
        | none => readOn m fuel .start (s :: outer) (← inside? m rest)
      | '&', '&' :: rest | '-', '-' :: rest | '~', '~' :: rest =>
        readOn m fuel s.operated outer rest
      | _, _ => readOn m fuel (s.add .atom) outer (← afterItem? m (c :: rest))

def ofText? (m : Manner) (t : Text) : Option (Outline × Text) :=
  (inside? m t).bind (readOn m (t.length + 1) .start [])

end CharSet
end FileShell.Pattern
