import FileShell.FileSystem.Walk

namespace FileShell

namespace Node

mutual

def descendants : Node → List (Place × Node)
  | leaf _ => []
  | dir _ es => descendantsIn es

def descendantsIn : List (FileName × Node) → List (Place × Node)
  | [] => []
  | (name, node) :: rest =>
    ([name], node) :: (descendants node).map (fun (place, n) => (name :: place, n)) ++
      descendantsIn rest

end

end Node

namespace FileSystem

inductive Row where
  | directory (path : Bytes) (mode : Mode)
  | file (path : Bytes) (mode : Mode) (content : Bytes)
  | link (path : Bytes) (target : Path)
  | other (path : Bytes) (mode : Mode)
deriving DecidableEq, Repr

def relative (place : Place) : Bytes := ([Path.slash].intercalate place)

def row (fs : FileSystem) (path : Bytes) : Node → Row
  | .dir folder _ => .directory path folder.mode
  | .leaf id =>
    let leaf := fs.leaves id
    match leaf.body with
    | .file content => .file path leaf.mode content
    | .link target => .link path target
    | .pipe => .other path leaf.mode

def isNameable (place : Place) : Bool := place.path.bytes.length ≤ pathLimit

/-- The rows of all below a place in the order of their paths, links not followed; nothing if the
place itself is gone. What lies so deep that no path can name it does not show. -/
def inventory (fs : FileSystem) (place : Place) : Option (List Row) :=
  (fs.node? place).map fun node =>
    let nameable := node.descendants.filter fun (below, _) => isNameable (place ++ below)
    let found := nameable.map fun (below, n) => (relative below, n)
    (found.mergeSort fun a b => decide (a.1 ≤ b.1)).map fun (path, n) => fs.row path n

end FileSystem
end FileShell
