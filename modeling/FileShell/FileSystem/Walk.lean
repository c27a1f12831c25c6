import FileShell.FileSystem.Basic

namespace FileShell

/-- Whether a link is followed at the end of a path; before the end it always is. -/
inductive Following where
  | never
  | whenSlashed
  | unlessSlashed
  | always
deriving DecidableEq, Repr

def Following.follows (slash : Bool) : Following → Bool
  | .never => false
  | .whenSlashed => slash
  | .unlessSlashed => !slash
  | .always => true

/-- The directory a path leads into, and what it says there; `last` is empty for the root itself. -/
structure Brink where
  dir : Place
  last : Option Component
  slash : Bool
deriving DecidableEq, Repr

namespace FileSystem

def linkLimit : Nat := 40

def nameLimit : Nat := 255

def pathLimit : Nat := 4095

def fail {α : Type} (errno : Errno) : Except Fault α := .error (.os errno)

/-- What a directory must be for the next component, be it a dot, to be looked up in it. -/
def pass (fs : FileSystem) (dir : Place) : Except Fault Unit :=
  match fs.node? dir with
  | none => fail .missing
  | some (.leaf _) => fail .notDirectory
  | some (.dir folder _) => if folder.mode.searchable then .ok () else fail .denied

/-- Where a link's target starts from. -/
def origin (dir : Place) (target : Path) : Place := if target.isAbsolute then [] else dir

/-- A walk from `dir`, which needs the search permission of each directory that it looks into;
`again` goes on behind a link. -/
def walkFrom (fs : FileSystem) (following : Following)
    (again : Place → Bool → List Component → Except Fault Brink) (dir : Place) (slash : Bool) :
    List Component → Except Fault Brink
  | [] => .ok ⟨dir, none, slash⟩
  | [c] =>
    match fs.pass dir with
    | .error fault => .error fault
    | .ok () =>
      match c with
      | .name n =>
        match fs.linkTarget? (dir ++ [n]) with
        | some target =>
          if following.follows slash then
            again (origin dir target) (slash || target.endsInSlash) target.components
          else .ok ⟨dir, some c, slash⟩
        | none => .ok ⟨dir, some c, slash⟩
      | _ => .ok ⟨dir, some c, slash⟩
  | c :: next :: rest =>
    match fs.pass dir with
    | .error fault => .error fault
    | .ok () =>
      match c with
      | .here => fs.walkFrom following again dir slash (next :: rest)
      | .up => fs.walkFrom following again dir.parent slash (next :: rest)
      | .name n =>
        if nameLimit < n.length then fail .nameTooLong
        else
          match fs.node? (dir ++ [n]) with
          | none => fail .missing
          | some (.dir _ _) => fs.walkFrom following again (dir ++ [n]) slash (next :: rest)
          | some (.leaf _) =>
            match fs.linkTarget? (dir ++ [n]) with
            | some target => again (origin dir target) slash (target.components ++ next :: rest)
            | none => fail .notDirectory

/-- A walk that may still replace so many links. -/
def walk (fs : FileSystem) (following : Following) :
    Nat → Place → Bool → List Component → Except Fault Brink
  | 0 => fs.walkFrom following fun _ _ _ => fail .tooManyLinks
  | links + 1 => fs.walkFrom following (fs.walk following links)

def walkPath (fs : FileSystem) (following : Following) (path : Path) : Except Fault Brink :=
  fs.walk following linkLimit (if path.isAbsolute then [] else fs.base) path.endsInSlash
    path.components

/-- What every path must satisfy before a walk starts. -/
def accept (path : Path) : Except Fault Unit :=
  if path.bytes.contains 0 then .error .nulInPath
  else if path.bytes.isEmpty then fail .missing
  else if pathLimit < path.bytes.length then fail .nameTooLong
  else .ok ()

/-- The place that a brink names, if a node is there. -/
def settle (fs : FileSystem) (b : Brink) : Except Fault Place :=
  match b.last with
  | none | some .here => .ok b.dir
  | some .up => .ok b.dir.parent
  | some (.name n) =>
    if nameLimit < n.length then fail .nameTooLong
    else
      match fs.node? (b.dir ++ [n]) with
      | none => fail .missing
      | some node => if b.slash && !node.isDir then fail .notDirectory else .ok (b.dir ++ [n])

/-- The directory and last component of a path, no link at its end followed. -/
def brink (fs : FileSystem) (path : Path) : Except Fault Brink := do
  accept path
  fs.walkPath .never path

/-- Where a path leads, links followed. -/
def locate (fs : FileSystem) (path : Path) : Except Fault Place := do
  accept path
  fs.settle (← fs.walkPath .always path)

/-- Where a path leads, a link at its end not followed unless a slash stands behind it. -/
def locateEntry (fs : FileSystem) (path : Path) : Except Fault Place := do
  accept path
  fs.settle (← fs.walkPath .whenSlashed path)

def statusAt (fs : FileSystem) (place : Place) : Except Fault Status :=
  match fs.node? place with
  | some node => .ok (fs.statusOf node)
  | none => fail .missing

def status (fs : FileSystem) (path : Path) : Except Fault Status := do
  fs.statusAt (← fs.locate path)

def entryStatus (fs : FileSystem) (path : Path) : Except Fault Status := do
  fs.statusAt (← fs.locateEntry path)

def reaches (fs : FileSystem) (path : Path) : Bool := (fs.status path).toBool

def isDirectory (fs : FileSystem) (path : Path) : Bool :=
  match fs.status path with
  | .ok ⟨.directory, _⟩ => true
  | _ => false

def isRegular (fs : FileSystem) (path : Path) : Bool :=
  match fs.status path with
  | .ok ⟨.file _, _⟩ => true
  | _ => false

def list (fs : FileSystem) (path : Path) : Except Fault (List (FileName × Node)) := do
  match fs.node? (← fs.locate path) with
  | some (.dir folder entries) => if folder.mode.readable then .ok entries else fail .denied
  | _ => fail .notDirectory

end FileSystem
end FileShell
