import FileShell.FileSystem.Walk

namespace FileShell.FileSystem

/-- The state a call leaves behind, whether it failed or not. -/
structure Attempt where
  files : FileSystem
  failure : Option Fault

namespace Attempt

/-- A call that makes all of its change or none. -/
def whole (fs : FileSystem) : Except Fault FileSystem → Attempt
  | .ok after => ⟨after, none⟩
  | .error fault => ⟨fs, some fault⟩

/-- A failure has changed nothing. -/
def Spares (attempt : Attempt) (fs : FileSystem) : Prop :=
  ∀ fault, attempt.failure = some fault → attempt.files = fs

theorem eq_of_done {attempt : Attempt} (h : attempt.failure = none) :
    attempt = ⟨attempt.files, none⟩ := by
  rw [← h]

theorem whole_spares (fs : FileSystem) (result : Except Fault FileSystem) :
    (whole fs result).Spares fs := by
  intro fault h
  cases result with
  | ok after => cases h
  | error other => rfl

end Attempt

/-- Entries of a directory may be added and removed by one who can write and search it. -/
def mayChange (fs : FileSystem) (dir : Place) : Except Fault Unit :=
  match fs.folder? dir with
  | some folder =>
    if folder.mode.writable && folder.mode.searchable then .ok () else fail .denied
  | none => fail .missing

def checkName (name : FileName) : Except Fault Unit :=
  if nameLimit < name.length then fail .nameTooLong else .ok ()

/-- A directory made in one that passes its group on does so too. -/
def newFolder (fs : FileSystem) (dir : Place) : Folder :=
  let inherited : Mode :=
    match fs.folder? dir with
    | some folder => folder.mode &&& Mode.setGroup
    | none => 0
  ⟨0o755#12 ||| inherited, fs.clock⟩

def makeDirectory (fs : FileSystem) (path : Path) : Except Fault FileSystem := do
  let b ← fs.brink path
  match b.last with
  | some (.name n) =>
    checkName n
    if (fs.node? (b.dir ++ [n])).isSome then fail .alreadyExists
    fs.mayChange b.dir
    return fs.putEntry b.dir n (.dir (fs.newFolder b.dir) [])
  | _ => fail .alreadyExists

def removeDirectory (fs : FileSystem) (path : Path) : Except Fault FileSystem := do
  let b ← fs.brink path
  match b.last with
  | none => fail .busy
  | some .here => fail .invalid
  | some .up => fail .notEmpty
  | some (.name n) =>
    checkName n
    match fs.node? (b.dir ++ [n]) with
    | none => fail .missing
    | some node =>
      fs.mayChange b.dir
      match node with
      | .leaf _ => fail .notDirectory
      | .dir _ [] => return fs.dropEntry b.dir n
      | .dir _ (_ :: _) => fail .notEmpty

def removeFile (fs : FileSystem) (path : Path) : Except Fault FileSystem := do
  let b ← fs.brink path
  match b.last with
  | some (.name n) =>
    checkName n
    match fs.node? (b.dir ++ [n]) with
    | none => fail .missing
    | some node =>
      if b.slash then fail (if node.isDir then .isDirectory else .notDirectory)
      fs.mayChange b.dir
      if node.isDir then fail .isDirectory
      return fs.dropEntry b.dir n
  | _ => fail .isDirectory

def sameNode (place other : Place) : Node → Node → Bool
  | .leaf id, .leaf id' => id == id'
  | .dir _ _, .dir _ _ => place == other
  | _, _ => false

/-- A moved node replaces one of its own kind only. -/
def kindsAgree (node target : Node) : Except Fault Unit :=
  match node, target with
  | .leaf _, .dir _ _ => fail .isDirectory
  | .dir _ _, .leaf _ => fail .notDirectory
  | _, _ => .ok ()

/-- A directory that changes its parent is written to itself. -/
def mayLeave (node : Node) (dir newDir : Place) : Except Fault Unit :=
  match node with
  | .dir folder _ => if dir ≠ newDir && !folder.mode.writable then fail .denied else .ok ()
  | .leaf _ => .ok ()

def rename (fs : FileSystem) (old new : Path) : Except Fault FileSystem := do
  let b ← fs.brink old
  let c ← fs.brink new
  match b.last, c.last with
  | some (.name n), some (.name m) =>
    let place := b.dir ++ [n]
    let target := c.dir ++ [m]
    checkName n
    match fs.node? place with
    | none => fail .missing
    | some node =>
      checkName m
      if !node.isDir && (b.slash || c.slash) then fail .notDirectory
      if node.isDir && place.isPrefixOf c.dir then fail .invalid
      match fs.node? target with
      | none =>
        fs.mayChange b.dir
        fs.mayChange c.dir
        mayLeave node b.dir c.dir
        return (fs.dropEntry b.dir n).putEntry c.dir m node
      | some present =>
        if present.isDir && target.isPrefixOf b.dir then fail .notEmpty
        if sameNode place target node present then return fs
        fs.mayChange b.dir
        fs.mayChange c.dir
        kindsAgree node present
        mayLeave node b.dir c.dir
        if !present.entries.isEmpty then fail .notEmpty
        return (fs.dropEntry b.dir n).putEntry c.dir m node
  | _, _ => fail .busy

def setMode (fs : FileSystem) (place : Place) (mode : Mode) : FileSystem :=
  match fs.node? place with
  | some (.leaf id) => fs.setLeaf id { fs.leaves id with mode := mode }
  | some (.dir _ _) => fs.modify place (Node.withFolder fun folder => { folder with mode := mode })
  | none => fs

def changeMode (fs : FileSystem) (path : Path) (mode : Mode) : Except Fault FileSystem :=
  match path.bytes.findIdx? (· == 0) with
  | some offset => .error (.nulAt offset)
  | none => do return fs.setMode (← fs.locate path) mode

end FileShell.FileSystem
