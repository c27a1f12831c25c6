import FileShell.FileSystem.Fault

namespace FileShell

/-- A stream that may have room for so many bytes only, and then takes what fits of a write and
refuses the rest; it may also allow so many flushes only. -/
structure Sink where
  written : Bytes
  room : Option Nat
  flushes : Option Nat
deriving DecidableEq, Repr

namespace Sink

def unlimited : Sink := ⟨[], none, none⟩

def withRoom (room : Option Nat) : Sink := ⟨[], room, none⟩

def full : Fault := .other "sink full".toList

def flushFailed : Fault := .other "flush failed".toList

def writeBytes (s : Sink) (bs : Bytes) : Sink × Option Fault :=
  match s.room with
  | none => ({ s with written := s.written ++ bs }, none)
  | some room =>
    if bs.length ≤ room then
      ({ s with written := s.written ++ bs, room := some (room - bs.length) }, none)
    else ({ s with written := s.written ++ bs.take room, room := some 0 }, some full)

def write (s : Sink) (t : Text) : Sink × Option Fault := s.writeBytes (Utf8.encode t)

def flush (s : Sink) : Sink × Option Fault :=
  match s.flushes with
  | none => (s, none)
  | some 0 => (s, some flushFailed)
  | some (n + 1) => ({ s with flushes := some n }, none)

end Sink
end FileShell
