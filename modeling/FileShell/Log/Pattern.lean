import FileShell.Log.Pattern.CharSet
import FileShell.Log.Pattern.Opening
import FileShell.Text.Pieces

namespace FileShell.Pattern

/-- A group whose closing parenthesis has not come yet, or the pattern as a whole. -/
structure OpenGroup where
  manner : Manner
  /-- What there is to choose from before the last bar, last one first. -/
  choices : List Outline
  /-- The parts since, last one first. -/
  parts : List Outline
deriving Repr

namespace OpenGroup

def start (m : Manner) : OpenGroup := ⟨m, [], []⟩

def add (g : OpenGroup) (part : Outline) : OpenGroup := { g with parts := part :: g.parts }

def current (g : OpenGroup) : Outline := .ofParts g.parts.reverse

def barred (g : OpenGroup) : OpenGroup := ⟨g.manner, g.current :: g.choices, []⟩

def content (g : OpenGroup) : Outline := .ofParts (g.current :: g.choices).reverse

end OpenGroup

/-- Reads a group to its end and on to the end of the pattern, behind the groups of these names;
each step takes some text. -/
def readOn : Nat → List Text → OpenGroup → List OpenGroup → Text → Option Outline
  | 0, _, _, _, _ => none
  | fuel + 1, names, g, outer, t =>
    match g.manner.skip t with
    | [] => if outer.isEmpty then some g.content else none
    | '(' :: rest => do
      let (opening, after) ← Opening.ofText? g.manner rest
      match opening with
      | .settings m => readOn fuel names { g.add .setting with manner := m } outer after
      | .group none m => readOn fuel names (.start m) (g :: outer) after
      | .group (some name) m =>
        if names.contains name then none
        else readOn fuel (name :: names) (.start m) (g :: outer) after
    | ')' :: rest =>
      match outer with
      | [] => none
      | parent :: outer => readOn fuel names (parent.add (.around g.content)) outer rest
    | '|' :: rest => readOn fuel names g.barred outer rest
    | '*' :: rest | '+' :: rest | '?' :: rest => do
      let parts ← Outline.repeatLast? g.parts
      readOn fuel names { g with parts } outer (if rest.head? = some '?' then rest.tail else rest)
    | '[' :: rest => do
      let (set, after) ← CharSet.ofText? g.manner rest
      readOn fuel names (g.add set) outer after
    | '\x7b' :: _ => none
    | rest => do
      let (symbol, after) ← Symbol.ofText? g.manner rest
      if symbol.isAllowed g.manner then readOn fuel names (g.add .atom) outer after else none

def outline? (t : Text) : Option Outline := readOn (t.length + 1) [] (.start .plain) [] t

def isPattern (t : Text) : Bool := (outline? t).any (·.depth ≤ Outline.depthLimit)

def isUnsigned (t : Text) : Bool :=
  let mantissa := t.takeWhile fun c => c ≠ 'e' ∧ c ≠ 'E'
  let isDecimal :=
    match Text.cutAt '.' mantissa with
    | [whole] => (Text.natural? whole).isSome
    | [whole, places] => (whole ++ places).all Text.isDigit && !(whole ++ places).isEmpty
    | _ => false
  let isExponent : Text → Bool
    | [] => true
    | _ :: '+' :: digits | _ :: '-' :: digits => (Text.natural? digits).isSome
    | _ :: digits => (Text.natural? digits).isSome
  isDecimal && isExponent (t.drop mantissa.length)

/-- A value may be a number with a plus sign, which as a pattern would be ill formed. -/
def isValue : Text → Bool
  | '+' :: rest =>
    isUnsigned rest || ["inf", "infinity", "nan"].any (·.toList == rest.map Char.toLower)
  | t => isPattern t

end FileShell.Pattern
