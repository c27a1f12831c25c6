namespace FileShell.Pattern

/-- How the parts of a pattern lie in each other, whatever they match. -/
inductive Outline where
  /-- Settings, which match nothing and cannot be repeated. -/
  | setting
  | atom
  /-- A group, a repetition or a set around its inside. -/
  | around (inside : Outline)
  /-- Parts behind each other, or to choose from. -/
  | row (parts : List Outline)
deriving Repr

namespace Outline

def depthLimit : Nat := 250

mutual

def depth : Outline → Nat
  | .setting | .atom => 0
  | .around inside => inside.depth + 1
  | .row parts => depthOfAll parts + 1

def depthOfAll : List Outline → Nat
  | [] => 0
  | part :: parts => max part.depth (depthOfAll parts)

end

/-- The row of some parts; a single one needs no row. -/
def ofParts : List Outline → Outline
  | [] => .atom
  | [part] => part
  | parts => .row parts

/-- Parts, last one first, of which the last is to be repeated; settings cannot be. -/
def repeatLast? : List Outline → Option (List Outline)
  | [] | .setting :: _ => none
  | part :: parts => some (.around part :: parts)

end Outline
end FileShell.Pattern
