import FileShell.Log
import FileShell.Log.Pattern
import FileShell.Text.Blank

namespace FileShell

/-- The least grave level that is shown, or that nothing is. -/
abbrev Threshold := Option Level

namespace Threshold

def admits (t : Threshold) (level : Level) : Bool := t.any fun limit => level.rank ≤ limit.rank

def words : List (String × Threshold) :=
  [("off", none), ("error", some .error), ("warn", some .warn), ("info", some .info),
    ("debug", some .debug), ("trace", some .trace)]

/-- A threshold by its word in any case, or by its place in the list of them. -/
def ofText? (t : Text) : Option Threshold :=
  match Text.natural? (if t.head? = some '+' then t.tail else t) with
  | some n => words[n]?.map (·.2)
  | none => (words.find? fun (word, _) => word.toList == t.map Char.toLower).map (·.2)

end Threshold

/-- A field that an event is to have, and the value that it is to have there. -/
structure FieldTest where
  name : Text
  value : Option Text
deriving DecidableEq, Repr

namespace FieldTest

/-- What stands between braces; behind a second equals sign nothing counts. -/
def ofText? (t : Text) : Option FieldTest :=
  match Text.cutAt '=' t with
  | name :: value :: _ => if Pattern.isValue value then some ⟨name, some value⟩ else none
  | _ => if t.isEmpty then none else some ⟨t, none⟩

end FieldTest

/-- The start of a target, brackets with the name of a span and a field in braces, and a level
behind an equals sign, each of which may be missing. -/
structure LogRule where
  /-- The start of the targets that the rule is for. -/
  target : Text
  span : Option Text
  field : Option FieldTest
  upTo : Threshold
deriving DecidableEq, Repr

namespace LogRule

/-- Rules that name a span or a value are for spans, of which there are none. -/
def isForEvents (r : LogRule) : Bool := r.span.isNone && r.field.all (·.value.isNone)

def fieldName (r : LogRule) : Text := (r.field.map (·.name)).getD []

def concerns (r : LogRule) (e : Event) : Bool :=
  r.isForEvents && r.target.isPrefixOf e.target.toList &&
    (r.field.isNone || e.fieldNames.any (·.toList == r.fieldName))

/-- Longer targets are more specific, then rules with a field, then fields later in the alphabet. -/
def isAtLeastAsSpecific (r s : LogRule) : Bool :=
  s.target.length < r.target.length ||
    (s.target.length == r.target.length && !(r.fieldName < s.fieldName : Bool))

/-- A rule as it is given and without the blanks around it. -/
structure Spelling where
  given : Text
  trimmed : Text

namespace Spelling

def ofText (t : Text) : Spelling :=
  ⟨t, ((t.dropWhile Text.isBlank).reverse.dropWhile Text.isBlank).reverse⟩

/-- The byte that a rest begins with, counted without the blanks. -/
def place (s : Spelling) (rest : Text) : Nat :=
  (Utf8.encode s.trimmed).length - (Utf8.encode rest).length

/-- The part between two rests. Its place is counted without the blanks, but it is cut out of the
rule as given, so blanks at the start of a rule move its parts. -/
def between? (s : Spelling) (rest after : Text) : Option Text :=
  Utf8.decode? (((Utf8.encode s.given).take (s.place after)).drop (s.place rest))

def threshold? (s : Spelling) (rest : Text) : Option Threshold := do
  let t ← Utf8.decode? ((Utf8.encode s.given).drop (s.place rest))
  if t.isEmpty then some (some .trace) else Threshold.ofText? t

end Spelling

def withThreshold? (s : Spelling) (r : LogRule) : Text → Option LogRule
  | [] => some r
  | '=' :: rest => (s.threshold? rest).map fun t => { r with upTo := t }
  | _ => none

/-- Reads a rule from the inside of its brackets on. -/
def withBrackets? (s : Spelling) (target rest : Text) : Option LogRule :=
  let after := rest.dropWhile fun c => c ≠ ']' ∧ c ≠ '\x7b'
  match after with
  | ']' :: tail => do
    let span ← s.between? rest after
    withThreshold? s ⟨target, some span, none, some .trace⟩ tail
  | _ :: inner =>
    let close := inner.dropWhile (· ≠ '\x7d')
    match close with
    | _ :: ']' :: tail => do
      let span ← s.between? rest after
      let field ← FieldTest.ofText? (← s.between? inner close)
      let span := if span.isEmpty then none else some span
      withThreshold? s ⟨target, span, some field, some .trace⟩ tail
    | _ => none
  | [] => none

def isNameStart (c : Char) : Bool := c == '-' || c == ':' || c == '_' || Text.isAlphanumeric c

/-- Reads a rule; one that is a single word is a level if it can be, and else a target. -/
def ofText? (t : Text) : Option LogRule :=
  let s := Spelling.ofText t
  match s.trimmed with
  | [] => none
  | '[' :: rest => withBrackets? s [] rest
  | c :: _ =>
    if !isNameStart c then none
    else
      let after := s.trimmed.dropWhile fun c => c ≠ '=' ∧ c ≠ '['
      match after with
      | [] =>
        match Threshold.ofText? t with
        | some threshold => some ⟨[], none, none, threshold⟩
        | none => some ⟨t, none, none, some .trace⟩
      | '[' :: rest => (s.between? s.trimmed after).bind (withBrackets? s · rest)
      | _ :: rest => do
        return ⟨← s.between? s.trimmed after, none, none, ← s.threshold? rest⟩

end LogRule

abbrev LogFilter := List LogRule

namespace LogFilter

def upTo (threshold : Threshold) : LogFilter := [⟨[], none, none, threshold⟩]

/-- The filter that a text describes; one without any rule shows errors. -/
def ofText? (t : Text) : Option LogFilter := do
  let rules ← ((Text.cutAt ',' t).filter (!·.isEmpty)).mapM LogRule.ofText?
  return if rules.isEmpty then upTo (some .error) else rules

/-- The filter for a program that was asked to tell more, or not. -/
def standard (verbose : Bool) : LogFilter := upTo (some (if verbose then .debug else .warn))

/-- The most specific of the rules that concern an event, the last of those that are equally so. -/
def decisive? (filter : LogFilter) (e : Event) : Option LogRule :=
  (filter.filter (·.concerns e)).foldl (fun best rule =>
    if best.all rule.isAtLeastAsSpecific then some rule else best) none

def shows (filter : LogFilter) (e : Event) : Bool :=
  (filter.decisive? e).any (·.upTo.admits e.level)

end LogFilter
end FileShell
