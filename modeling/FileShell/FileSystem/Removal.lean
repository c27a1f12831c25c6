import FileShell.FileSystem.Change

namespace FileShell

namespace Node

mutual

/-- Empties a directory entry by entry, and never through a link: what is left of it, and the
failure that stopped it. What cannot be removed stays, with all that comes after it. -/
def purge (now : Instant) : Node → Node × Option Errno
  | leaf id => (leaf id, some .notDirectory)
  | dir folder es =>
    if folder.mode.readable then
      let (left, failure) := purgeEntries now folder es
      let touched := if left.length < es.length then { folder with modified := now } else folder
      (dir touched left, failure)
    else (dir folder es, some .denied)

def purgeEntries (now : Instant) (folder : Folder) :
    List (FileName × Node) → List (FileName × Node) × Option Errno
  | [] => ([], none)
  | (name, leaf id) :: rest =>
    if folder.mode.writable && folder.mode.searchable then purgeEntries now folder rest
    else ((name, leaf id) :: rest, some .denied)
  | (name, dir inner es) :: rest =>
    if folder.mode.searchable then
      match purge now (dir inner es) with
      | (left, some errno) => ((name, left) :: rest, some errno)
      | (left, none) =>
        if folder.mode.writable then purgeEntries now folder rest
        else ((name, left) :: rest, some .denied)
    else ((name, dir inner es) :: rest, some .denied)

end

end Node

namespace FileSystem

/-- Empties the directory a path leads to and then removes it under the path as it is spelled. -/
def removeTree (fs : FileSystem) (path : Path) : Attempt :=
  match fs.locateEntry path with
  | .error fault => ⟨fs, some fault⟩
  | .ok place =>
    match fs.node? place with
    | none => ⟨fs, some (.os .missing)⟩
    | some (.leaf _) => ⟨fs, some (.os .notDirectory)⟩
    | some node =>
      let (left, failure) := node.purge fs.clock
      let emptied := fs.modify place fun _ => left
      match failure with
      | some errno => ⟨emptied, some (.os errno)⟩
      | none =>
        match emptied.removeDirectory path with
        | .ok after => ⟨after, none⟩
        | .error (.os errno) => ⟨emptied, if errno = .missing then none else some (.os errno)⟩
        | .error fault => ⟨emptied, some fault⟩

end FileSystem
end FileShell
