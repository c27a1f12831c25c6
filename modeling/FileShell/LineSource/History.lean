import FileShell.FileSystem.Copying
import FileShell.LineSource
import FileShell.Log

namespace FileShell.History

/-- The first line of a file whose entries may hold line ends. -/
def versionMark : Text := "#V2".toList

def textLines (content : Bytes) : List Text :=
  let (lines, tail) := LineSource.splitLines content
  let texts := ((lines ++ [tail]).map Utf8.decode?).takeWhile (·.isSome)
  texts.filterMap (·.map LineSource.chomp)

def entries (content : Bytes) : List Text :=
  match textLines content with
  | [] => []
  | first :: rest => (if first = versionMark then rest else first :: rest).filter (!·.isEmpty)

/-- A new file is for its owner alone. -/
def ownMode : Mode := 0o600#12

def savingEvents (fs : FileSystem) (path : Path) : List Event :=
  match fs.openForWriting path ownMode with
  | .ok _ => []
  | .error fault => [.historyNotSaved path fault]

/-- What is logged of loading the history that is there, up to a line that is no text, and of
closing the editor then, which writes a file anew that it could not load whole. -/
def events (fs : FileSystem) (path : Path) : List Event :=
  if !fs.reaches path then []
  else
    match fs.read path with
    | .error .notRegular => [.historyNotLoaded path (.os .isDirectory)]
    | .error fault => [.historyNotLoaded path fault]
    | .ok content =>
      if (Utf8.decode? content).isSome then []
      else
        .historyNotLoaded path .invalidText ::
          if (entries content).isEmpty then [] else savingEvents fs path

end FileShell.History
