import FileShell.Command.Basic
import FileShell.Listing
import FileShell.Search

namespace FileShell.Command

def helpText : Text :=
  ("================= COMMANDS =================\n" ++
    " ls [path]         : List directory contents\n" ++
    " cd <dir>          : Change directory\n" ++
    " pwd               : Show current directory\n" ++
    " cp <src> <dst>    : Copy file\n" ++
    " mv <src> <dst>    : Move/Rename file\n" ++
    " rm [-r] <path>    : Delete file/dir (-r for recursive)\n" ++
    " mkdir <dir>       : Create directory\n" ++
    " search <pattern>  : Search filenames recursively\n" ++
    " chmod <mode> <f>  : Change permissions (Unix only)\n" ++
    " help              : Show this help\n" ++
    " exit              : Quit program\n" ++
    "============================================\n").toList

def runPwd (w : World) : Effect := w.finish (w.session.directory.display ++ ['\n'])

/-- The rows of entries up to the first that cannot be written, and whether there is one. -/
def rows (zone : Zone) : List Entry → Text × Bool
  | [] => ([], true)
  | e :: rest =>
    match e.row? zone with
    | some row => let (text, whole) := rows zone rest; (row ++ '\n' :: text, whole)
    | none => ([], false)

def runLs (zone : Zone) (w : World) (args : List Text) : Effect :=
  let path :=
    match args with
    | arg :: _ => w.session.resolve arg
    | [] => w.session.directory
  if !w.files.reaches path then w.refuse (.pathNotFound path)
  else if !w.files.isDirectory path then w.refuse (.notADirectory path)
  else
    match w.files.listing path with
    | .error fault => w.refuse (.files path fault)
    | .ok entries =>
      let (text, whole) := rows zone entries
      if whole then w.finish text else ⟨w, text, .crashed, []⟩

def runSearch (w : World) (args : List Text) : Effect :=
  match args with
  | [] => w.refuse (.usage "search <pattern>".toList)
  | pattern :: _ =>
    match w.files.search w.session.directory pattern with
    | .error fault => w.refuse (.files w.session.directory fault)
    | .ok found =>
      { w.finish (found.hits.flatMap fun path => path.display ++ ['\n']) with
        events := found.skipped.map fun (dir, fault) => .skippedDirectory dir fault }

end FileShell.Command
