import FileShell.Path

namespace FileShell

/-- Nanoseconds since the start of 1970. -/
abbrev Instant := Int

/-- Twelve permission bits. -/
abbrev Mode := BitVec 12

namespace Mode

def readable (m : Mode) : Bool := m.getLsbD 8

def writable (m : Mode) : Bool := m.getLsbD 7

/-- For a directory, whether names in it can be looked up. -/
def searchable (m : Mode) : Bool := m.getLsbD 6

def setUser : Mode := 0o4000#12

def setGroup : Mode := 0o2000#12

def groupSearchable (m : Mode) : Bool := m.getLsbD 3

end Mode

inductive Body where
  | file (content : Bytes)
  | link (target : Path)
  | pipe
deriving DecidableEq, Repr

structure Leaf where
  body : Body
  mode : Mode
  modified : Instant
deriving DecidableEq, Repr

abbrev LeafId := Nat

structure Folder where
  mode : Mode
  modified : Instant
deriving DecidableEq, Repr

/-- The tree of directories. A directory holds its entries itself, so that it has one place; files,
links and pipes are leaves known by number, so that two entries can share one. -/
inductive Node where
  | leaf (id : LeafId)
  | dir (folder : Folder) (entries : List (FileName × Node))

namespace Node

def isDir : Node → Bool
  | leaf _ => false
  | dir _ _ => true

def entries : Node → List (FileName × Node)
  | leaf _ => []
  | dir _ es => es

def child? (node : Node) (name : FileName) : Option Node := node.entries.lookup name

/-- The node that names lead to, one directory after another. -/
def at? (node : Node) : Place → Option Node
  | [] => some node
  | name :: rest => (node.child? name).bind (·.at? rest)

/-- Changes the node at a place and nothing else; a place that leads nowhere changes nothing. -/
def modify (change : Node → Node) : Place → Node → Node
  | [], node => change node
  | _ :: _, leaf id => leaf id
  | name :: rest, dir folder es =>
    dir folder (es.map fun e => if e.1 = name then (e.1, modify change rest e.2) else e)

def put (node : Node) (name : FileName) (child : Node) : Node :=
  match node with
  | leaf id => leaf id
  | dir folder es =>
    if (es.lookup name).isSome then
      dir folder (es.map fun e => if e.1 = name then (name, child) else e)
    else dir folder (es ++ [(name, child)])

def drop (name : FileName) : Node → Node
  | leaf id => leaf id
  | dir folder es => dir folder (es.filter (·.1 ≠ name))

def withFolder (change : Folder → Folder) : Node → Node
  | leaf id => leaf id
  | dir folder es => dir (change folder) es

def touch (now : Instant) : Node → Node := withFolder fun folder => { folder with modified := now }

mutual

/-- One more than the greatest leaf number in use. -/
def fresh : Node → LeafId
  | leaf id => id + 1
  | dir _ es => freshIn es

def freshIn : List (FileName × Node) → LeafId
  | [] => 0
  | (_, node) :: rest => max (fresh node) (freshIn rest)

end

end Node
end FileShell
