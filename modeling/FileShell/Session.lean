import FileShell.FileSystem.Canonical
import FileShell.Path.Home

namespace FileShell

structure Session where
  place : Place
  home : Home
deriving DecidableEq, Repr

namespace Session

def directory (s : Session) : Path := s.place.path

/-- What an argument means: `~` expanded, then seen from the current directory. -/
def resolve (s : Session) (arg : Text) : Path := s.directory.join (s.home.expand arg)

/-- A session in an existing directory, known from then on by its place without links. -/
def start (fs : FileSystem) (home : Home) (path : Path) : Except Fault Session := do
  let place ← fs.canonical path
  if fs.isDirectory place.path then return ⟨place, home⟩
  else .error (.notDirectory place.path)

end Session
end FileShell
