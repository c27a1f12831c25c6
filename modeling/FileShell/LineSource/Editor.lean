import FileShell.LineSource
import FileShell.Text.Cluster

namespace FileShell

/-- A line under way: its characters and the sizes kept of its clusters, both last first. -/
structure Draft where
  kept : Text
  sizes : List Nat
deriving DecidableEq, Repr

namespace Draft

def empty : Draft := ⟨[], []⟩

/-- Takes so many bytes off the front of a text, if they are whole characters. -/
def dropBytes? : Text → Nat → Option Text
  | t, 0 => some t
  | [], _ + 1 => none
  | c :: rest, n + 1 =>
    let size := (Utf8.encodeChar c).length
    if size ≤ n + 1 then dropBytes? rest (n + 1 - size) else none

def backspace : Text := ['\x08']

def put (d : Draft) (cluster : Text) : Draft :=
  ⟨cluster.reverse ++ d.kept, (Utf8.encode cluster).length % 0x100 :: d.sizes⟩

/-- A backspace takes away the cluster before it. The size of a cluster is kept in one byte, so of
one with more bytes it takes away the rest of a division by 256, and the editor crashes where that
would leave a part of a character. -/
def erase? (d : Draft) : Option Draft :=
  match d.sizes with
  | [] => some d
  | n :: sizes => (dropBytes? d.kept n).map (⟨·, sizes⟩)

def type? (d : Draft) (cluster : Text) : Option Draft :=
  if cluster = backspace then d.erase? else some (d.put cluster)

def edited? (t : Text) : Option Text :=
  ((Text.clusters t).foldlM type? empty).map (·.kept.reverse)

end Draft

namespace LineSource

def editedLine (bs : Bytes) : Reading :=
  match Utf8.decode? bs with
  | none => .failure (.reading (.fault .invalidText))
  | some t => (Draft.edited? (chomp t)).elim .crash .line

/-- Bytes read by a line editor that has no terminal. -/
def edited (input : Bytes) : LineSource :=
  let (lines, tail) := splitLines input
  ⟨true, (lines ++ if tail.isEmpty then [] else [tail]).map editedLine⟩

end LineSource
end FileShell
