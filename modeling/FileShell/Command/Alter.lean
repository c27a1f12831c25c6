import FileShell.Command.Basic
import FileShell.FileSystem.Removal
import FileShell.FileSystem.Copying

namespace FileShell.Command

def runCd (w : World) (args : List Text) : Effect :=
  match args with
  | [] => w.refuse (.usage "cd <dir>".toList)
  | arg :: _ =>
    let path := w.session.resolve arg
    if !w.files.isDirectory path then w.refuse (.directoryNotFound path)
    else
      match w.files.canonical path with
      | .error fault => w.refuse (.files path fault)
      | .ok place =>
        { World.finish { w with session := { w.session with place := place } } [] with
          events := [.changedDirectory place.path] }

/-- Nothing if something is there, else the failure that says so. -/
def absent? (files : FileSystem) (path : Path) : Option Failure :=
  match files.entryStatus path with
  | .ok _ => none
  | .error fault => some (if fault.isMissing then .pathNotFound path else .files path fault)

/-- The operand to blame for a failed copy: the source unless it can be read as a regular file. -/
def culprit (files : FileSystem) (source target : Path) : Path :=
  if files.isRegular source && (files.openForReading source).toBool then target else source

def runCp (w : World) (args : List Text) : Effect :=
  match args with
  | src :: dst :: _ =>
    let source := w.session.resolve src
    let target := w.session.resolve dst
    if !w.files.reaches source then w.refuse (.pathNotFound source)
    else w.leave (culprit w.files source target) (w.files.copy source target)
  | _ => w.refuse (.usage "cp <src> <dst>".toList)

def runMv (w : World) (args : List Text) : Effect :=
  match args with
  | src :: dst :: _ =>
    let source := w.session.resolve src
    match absent? w.files source with
    | some failure => w.refuse failure
    | none => w.apply source (w.files.rename source (w.session.resolve dst))
  | _ => w.refuse (.usage "mv <src> <dst>".toList)

def removal (w : World) (recursive : Bool) (path : Path) : Effect :=
  match w.files.entryStatus path with
  | .error fault =>
    w.refuse (if fault.isMissing then .pathNotFound path else .files path fault)
  | .ok status =>
    match decide (status.kind = .directory), recursive with
    | true, true => w.leave path (w.files.removeTree path)
    | true, false => w.apply path (w.files.removeDirectory path)
    | false, _ => w.apply path (w.files.removeFile path)

/-- The flag for removing directories counts in front only. -/
def recursiveFlag : Text := "-r".toList

def rmUsage : Failure := .usage "rm [-r] <path>".toList

def runRm (w : World) (args : List Text) : Effect :=
  match args with
  | [] => w.refuse rmUsage
  | [arg] =>
    if arg = recursiveFlag then w.refuse rmUsage else removal w false (w.session.resolve arg)
  | arg :: target :: _ =>
    if arg = recursiveFlag then removal w true (w.session.resolve target)
    else removal w false (w.session.resolve arg)

def runMkdir (w : World) (args : List Text) : Effect :=
  match args with
  | [] => w.refuse (.usage "mkdir <dir>".toList)
  | arg :: _ => let path := w.session.resolve arg; w.apply path (w.files.makeDirectory path)

def unsupportedNotice : Text := "chmod not supported on this platform.".toList

def runChmod (permissions : Option PermissionControl) (w : World) (args : List Text) : Effect :=
  match permissions with
  | none => w.finish (unsupportedNotice ++ ['\n'])
  | some control =>
    match args with
    | raw :: target :: _ =>
      match Mode.parse? raw with
      | none => w.refuse (.invalidMode raw)
      | some mode =>
        let path := w.session.resolve target
        let result := control.setMode w.calls w.files path mode
        { w with calls := w.calls ++ [(path, mode)] }.apply path result
    | _ => w.refuse (.usage "chmod <mode> <file>".toList)

end FileShell.Command
