import FileShell.FileSystem.Walk

namespace FileShell.FileSystem

/-- Whether what follows a name asks for a directory: it goes up or ends in a slash or a dot. -/
def asksForDirectory (slash : Bool) : List Component → Bool
  | [] => slash
  | .here :: rest => asksForDirectory true rest
  | .up :: _ => true
  | .name _ :: _ => false

def nodeNamed (fs : FileSystem) (dir : Place) (n : FileName) : Except Fault Node := do
  fs.pass dir
  if nameLimit < n.length then fail .nameTooLong
  match fs.node? (dir ++ [n]) with
  | none => fail .missing
  | some node => .ok node

/-- A way from `dir`; `again` goes on behind a link. A directory that is asked for is looked at with
a slash behind it, which counts as a part of its spelling. -/
def canonicalFrom (fs : FileSystem) (again : Place → Bool → List Component → Except Fault Place)
    (dir : Place) (slash : Bool) : List Component → Except Fault Place
  | [] => .ok dir
  | .here :: rest => fs.canonicalFrom again dir slash rest
  | .up :: rest => fs.canonicalFrom again dir.parent slash rest
  | .name n :: rest => do
    let place := dir ++ [n]
    let length := place.path.bytes.length
    if pathLimit < length then fail .nameTooLong
    let found := fs.nodeNamed dir n
    match found.toOption.bind fun _ => fs.linkTarget? place with
    | some target =>
      again (origin dir target) (slash || (rest.isEmpty && target.endsInSlash))
        (target.components ++ rest)
    | none =>
      let asked := asksForDirectory slash rest
      if asked && length = pathLimit then fail .nameTooLong
      let node ← found
      if asked && !node.isDir then fail .notDirectory
      fs.canonicalFrom again place slash rest

def canonicalWithin (fs : FileSystem) : Nat → Place → Bool → List Component → Except Fault Place
  | 0 => fs.canonicalFrom fun _ _ _ => fail .tooManyLinks
  | links + 1 => fs.canonicalFrom (fs.canonicalWithin links)

/-- The place that a path leads to, all links followed. Each place on the way is looked at by its
full spelling, which must not be too long even if the path leaves it again; going up needs no
permission. -/
def canonical (fs : FileSystem) (path : Path) : Except Fault Place := do
  if path.bytes.contains 0 then .error .nulInPath
  if path.bytes.isEmpty then fail .missing
  fs.canonicalWithin linkLimit (if path.isAbsolute then [] else fs.base) path.endsInSlash
    path.components

end FileShell.FileSystem
