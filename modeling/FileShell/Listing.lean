import FileShell.Calendar
import FileShell.FileSystem.Walk

namespace FileShell

inductive EntrySort where
  | file
  | directory
deriving DecidableEq, Repr

structure Entry where
  name : Text
  sort : EntrySort
  size : Nat
  modified : Option Instant
deriving DecidableEq, Repr

def EntrySort.text : EntrySort → Text
  | .file => "FILE".toList
  | .directory => "DIR ".toList

namespace Entry

def ofStatus (name : Text) (status : Status) : Entry :=
  match status.kind with
  | .directory => ⟨name, .directory, 0, some status.modified⟩
  | .file size => ⟨name, .file, size, some status.modified⟩
  | _ => ⟨name, .file, 0, some status.modified⟩

/-- The entry for a path: what it leads to, or else the link itself, or else next to nothing. -/
def ofPath (fs : FileSystem) (path : Path) : Entry :=
  let name := Utf8.decode (path.fileName.getD [])
  match fs.status path with
  | .ok status => ofStatus name status
  | .error _ =>
    match fs.entryStatus path with
    | .ok status => ofStatus name status
    | .error _ => ⟨name, .file, 0, none⟩

def noStamp : Text := List.replicate 19 '-'

def row (e : Entry) (stamp : Text) : Text :=
  e.sort.text ++ ' ' :: Text.padLeft 10 ' ' (Text.decimal e.size) ++ ' ' :: stamp ++ ' ' :: e.name

/-- The row of an entry, unless its time cannot be written. -/
def row? (zone : Zone) (e : Entry) : Option Text :=
  match e.modified with
  | none => some (e.row noStamp)
  | some time => (Calendar.stamp? zone time).map e.row

end Entry

/-- The entries of a directory in the order of their names. -/
def FileSystem.listing (fs : FileSystem) (path : Path) : Except Fault (List Entry) := do
  let children ← fs.list path
  let entries := children.map fun (name, _) => Entry.ofPath fs (path.join ⟨name⟩)
  return entries.mergeSort fun a b => Utf8.precedes a.name b.name

end FileShell
