import FileShell.FileSystem.Change

namespace FileShell.FileSystem

/-- Opens a path for writing, making an empty file or emptying the one that is there. A pipe is taken
to be open for reading elsewhere: the call would otherwise wait for that, and not come back. -/
def openForWriting (fs : FileSystem) (path : Path) (mode : Mode) :
    Except Fault (LeafId × FileSystem) := do
  accept path
  let b ← fs.walkPath .unlessSlashed path
  match b.last with
  | some (.name n) =>
    if b.slash then fail .isDirectory
    checkName n
    match fs.node? (b.dir ++ [n]) with
    | none =>
      fs.mayChange b.dir
      let id := fs.root.fresh
      return (id, (fs.putEntry b.dir n (.leaf id)).setLeaf id ⟨.file [], mode, fs.clock⟩)
    | some (.dir _ _) => fail .isDirectory
    | some (.leaf id) =>
      let leaf := fs.leaves id
      if !leaf.mode.writable then fail .denied
      match leaf.body with
      | .file _ => return (id, fs.setLeaf id { leaf with body := .file [], modified := fs.clock })
      | _ => return (id, fs)
  | _ => fail .isDirectory

/-- Writing takes the right to run as another user from a file, and as another group likewise. -/
def afterWrite (mode : Mode) : Mode :=
  let kept := mode &&& ~~~Mode.setUser
  if mode.groupSearchable then kept &&& ~~~Mode.setGroup else kept

/-- Writes content into an open file; writing nothing changes nothing. -/
def fill (fs : FileSystem) (id : LeafId) (content : Bytes) : FileSystem :=
  let leaf := fs.leaves id
  match leaf.body with
  | .file _ =>
    if content.isEmpty then fs
    else fs.setLeaf id ⟨.file content, afterWrite leaf.mode, fs.clock⟩
  | _ => fs

def setRegularMode (fs : FileSystem) (id : LeafId) (mode : Mode) : FileSystem :=
  match (fs.leaves id).body with
  | .file _ => fs.setLeaf id { fs.leaves id with mode := mode }
  | _ => fs

def contentOf (fs : FileSystem) (id : LeafId) : Bytes :=
  match (fs.leaves id).body with
  | .file content => content
  | _ => []

/-- The regular file that a path leads to, open for reading. A pipe is refused as what it is, though
only once it is open for writing elsewhere, which it is taken to be. -/
def openForReading (fs : FileSystem) (path : Path) : Except Fault LeafId := do
  match fs.node? (← fs.locate path) with
  | some (.dir folder _) => if folder.mode.readable then .error .notRegular else fail .denied
  | some (.leaf id) =>
    let leaf := fs.leaves id
    if leaf.mode.readable then
      match leaf.body with
      | .file _ => return id
      | _ => .error .notRegular
    else fail .denied
  | none => fail .missing

/-- Copies a regular file over another name. The source is opened first, then the destination is
made or emptied and takes the permission bits of the source, and only then is the content read and
written. -/
def copy (fs : FileSystem) (source target : Path) : Attempt :=
  match fs.openForReading source with
  | .error fault => ⟨fs, some fault⟩
  | .ok reader =>
    let mode := (fs.leaves reader).mode
    match fs.openForWriting target mode with
    | .error fault => ⟨fs, some fault⟩
    | .ok (id, opened) => ⟨(opened.setRegularMode id mode).fill id (opened.contentOf reader), none⟩

theorem copy_spares (fs : FileSystem) (source target : Path) : (fs.copy source target).Spares fs := by
  intro fault h
  unfold copy at h ⊢
  split
  · rfl
  · next reader hreader =>
    rw [hreader] at h
    dsimp only at h ⊢
    split
    · rfl
    · next id opened hopened =>
      rw [hopened] at h
      cases h

def read (fs : FileSystem) (path : Path) : Except Fault Bytes := do
  return fs.contentOf (← fs.openForReading path)

end FileShell.FileSystem
