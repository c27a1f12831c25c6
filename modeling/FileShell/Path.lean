import FileShell.Text.Utf8

namespace FileShell

/-- A name that a directory can hold: bytes other than `/` and NUL, and not `.` or `..`. -/
abbrev FileName := Bytes

structure Path where
  bytes : Bytes
deriving DecidableEq, Repr, Inhabited

/-- What a path says between two slashes. -/
inductive Component where
  | here
  | up
  | name (n : FileName)
deriving DecidableEq, Repr

namespace Path

def slash : UInt8 := 0x2F

def ofText (t : Text) : Path := ⟨Utf8.encode t⟩

def ofString (s : String) : Path := ofText s.toList

/-- The path as a text, with U+FFFD where it is not UTF-8. -/
def display (p : Path) : Text := Utf8.decode p.bytes

def isAbsolute (p : Path) : Bool := p.bytes.head? == some slash

def endsInSlash (p : Path) : Bool := p.bytes.getLast? == some slash

/-- `arg` seen from `base`: an absolute `arg` stands for itself, any other is put behind a slash. -/
def join (base arg : Path) : Path :=
  if arg.isAbsolute then arg
  else if base.bytes.isEmpty || base.endsInSlash then ⟨base.bytes ++ arg.bytes⟩
  else ⟨base.bytes ++ slash :: arg.bytes⟩

/-- The non-empty pieces between slashes; `piece` is the one under way, last byte first. -/
def piecesFrom (piece : Bytes) : Bytes → List Bytes
  | [] => if piece.isEmpty then [] else [piece.reverse]
  | b :: rest =>
    if b = slash then
      if piece.isEmpty then piecesFrom [] rest else piece.reverse :: piecesFrom [] rest
    else piecesFrom (b :: piece) rest

def pieces (p : Path) : List Bytes := piecesFrom [] p.bytes

def dot : Bytes := [0x2E]

def dotDot : Bytes := [0x2E, 0x2E]

def component (piece : Bytes) : Component :=
  if piece = dot then .here else if piece = dotDot then .up else .name piece

def components (p : Path) : List Component := p.pieces.map component

/-- The last name of a path, if it ends in one; a final `.` or slash does not count. -/
def fileName (p : Path) : Option FileName :=
  match (p.components.filter (· ≠ .here)).getLast? with
  | some (.name n) => some n
  | _ => none

end Path

/-- Where a directory or file is: the names that lead to it from the root, none of them a link. -/
abbrev Place := List FileName

namespace Place

def path (place : Place) : Path :=
  if place.isEmpty then ⟨[Path.slash]⟩ else ⟨place.flatMap (Path.slash :: ·)⟩

def parent (place : Place) : Place := place.dropLast

end Place
end FileShell
