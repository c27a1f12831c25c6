import FileShell.FileSystem.Node
import FileShell.FileSystem.Fault

namespace FileShell

structure FileSystem where
  root : Node
  leaves : LeafId → Leaf
  clock : Instant
  base : Place

/-- What one path shows of a node. -/
inductive Kind where
  | file (size : Nat)
  | directory
  | link
  | pipe
deriving DecidableEq, Repr

structure Status where
  kind : Kind
  modified : Instant
deriving DecidableEq, Repr

def Leaf.kind (leaf : Leaf) : Kind :=
  match leaf.body with
  | .file content => .file content.length
  | .link _ => .link
  | .pipe => .pipe

namespace FileSystem

def node? (fs : FileSystem) (place : Place) : Option Node := fs.root.at? place

def folder? (fs : FileSystem) (place : Place) : Option Folder :=
  match fs.node? place with
  | some (.dir folder _) => some folder
  | _ => none

def leaf? (fs : FileSystem) (place : Place) : Option Leaf :=
  match fs.node? place with
  | some (.leaf id) => some (fs.leaves id)
  | _ => none

def linkTarget? (fs : FileSystem) (place : Place) : Option Path :=
  match fs.leaf? place with
  | some ⟨.link target, _, _⟩ => some target
  | _ => none

def statusOf (fs : FileSystem) : Node → Status
  | .leaf id => ⟨(fs.leaves id).kind, (fs.leaves id).modified⟩
  | .dir folder _ => ⟨.directory, folder.modified⟩

def modify (fs : FileSystem) (place : Place) (change : Node → Node) : FileSystem :=
  { fs with root := fs.root.modify change place }

def setLeaf (fs : FileSystem) (id : LeafId) (leaf : Leaf) : FileSystem :=
  { fs with leaves := fun i => if i = id then leaf else fs.leaves i }

/-- Puts an entry into the directory at a place, which counts as a change of that directory. -/
def putEntry (fs : FileSystem) (place : Place) (name : FileName) (child : Node) : FileSystem :=
  fs.modify place fun node => (node.put name child).touch fs.clock

def dropEntry (fs : FileSystem) (place : Place) (name : FileName) : FileSystem :=
  fs.modify place fun node => (node.drop name).touch fs.clock

def empty (clock : Instant) : FileSystem :=
  ⟨.dir ⟨0o755#12, clock⟩ [], fun _ => ⟨.pipe, 0, clock⟩, clock, []⟩

end FileSystem
end FileShell
