import FileShell.Path

namespace FileShell

structure Home where
  path : Option Path
deriving DecidableEq, Repr

namespace Home

def unknown : Home := ⟨none⟩

def ofPath (p : Path) : Home := ⟨some p⟩

/-- `~` is the home and `~/rest` a path below it; all else, and all without a home, is kept. -/
def expand (home : Home) (arg : Text) : Path :=
  match home.path, arg with
  | some h, ['~'] => h
  | some h, '~' :: '/' :: rest => ((Path.ofText rest).pieces.map Path.mk).foldl Path.join h
  | _, _ => Path.ofText arg

end Home
end FileShell
