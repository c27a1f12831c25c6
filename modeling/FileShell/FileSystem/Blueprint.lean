import FileShell.FileSystem.Copying

namespace FileShell

inductive Shape where
  | file (content : Bytes)
  | directory
  | link (target : Path)
  /-- One more entry for what another path names. -/
  | again (existing : Path)
  | pipe
deriving DecidableEq, Repr

structure Blueprint where
  path : Path
  shape : Shape
  modified : Option Instant
  mode : Option Mode
deriving DecidableEq, Repr

namespace FileSystem

def makePath (fs : FileSystem) (start : Path) : List FileName → Except Fault FileSystem
  | [] => .ok fs
  | name :: rest => do
    let path := start.join ⟨name⟩
    if fs.isDirectory path then fs.makePath path rest
    else (← fs.makeDirectory path).makePath path rest

def makeLeaf (fs : FileSystem) (path : Path) (leaf : Leaf) : Except Fault FileSystem := do
  let b ← fs.brink path
  match b.last with
  | some (.name n) =>
    checkName n
    if (fs.node? (b.dir ++ [n])).isSome then fail .alreadyExists
    let id := fs.root.fresh
    return (fs.putEntry b.dir n (.leaf id)).setLeaf id leaf
  | _ => fail .alreadyExists

def makeAgain (fs : FileSystem) (path existing : Path) : Except Fault FileSystem := do
  let b ← fs.brink path
  match b.last, fs.node? (← fs.locateEntry existing) with
  | some (.name n), some (.leaf id) =>
    checkName n
    if (fs.node? (b.dir ++ [n])).isSome then fail .alreadyExists
    return fs.putEntry b.dir n (.leaf id)
  | some (.name _), some (.dir _ _) => fail .notPermitted
  | _, _ => fail .alreadyExists

def setModified (fs : FileSystem) (place : Place) (time : Instant) : FileSystem :=
  match fs.node? place with
  | some (.leaf id) => fs.setLeaf id { fs.leaves id with modified := time }
  | some (.dir _ _) => fs.modify place (Node.touch time)
  | none => fs

def add (fs : FileSystem) (root : Path) (item : Blueprint) : Except Fault FileSystem := do
  let names := item.path.pieces
  let path := root.join item.path
  let fs ← fs.makePath root (if item.shape = .directory then names else names.dropLast)
  match item.shape with
  | .directory => return fs
  | .file content =>
    let (id, opened) ← fs.openForWriting path 0o644#12
    return opened.fill id content
  | .link target => fs.makeLeaf path ⟨.link target, 0o777#12, fs.clock⟩
  | .again existing => fs.makeAgain path (root.join existing)
  | .pipe => fs.makeLeaf path ⟨.pipe, 0o644#12, fs.clock⟩

/-- The file system with all entries of a list made below a directory. Entries are made in order,
with the directories that lead to them; times and then permission bits are set when all are there,
the last entry first. -/
def build (fs : FileSystem) (root : Path) (items : List Blueprint) : Except Fault FileSystem := do
  let made ← items.foldlM (fun fs item => fs.add root item) fs
  let dated ← items.reverse.foldlM (fun (fs : FileSystem) item =>
    match item.modified with
    | some time => do return fs.setModified (← fs.locateEntry (root.join item.path)) time
    | none => .ok fs) made
  items.reverse.foldlM (fun (fs : FileSystem) item =>
    match item.mode with
    | some mode => do return fs.setMode (← fs.locate (root.join item.path)) mode
    | none => .ok fs) dated

end FileSystem
end FileShell
