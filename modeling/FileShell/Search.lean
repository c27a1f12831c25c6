import FileShell.FileSystem.Walk

namespace FileShell

namespace Text

def occursIn (pattern : Text) : Text → Bool
  | [] => pattern.isEmpty
  | c :: rest => pattern.isPrefixOf (c :: rest) || occursIn pattern rest

end Text

structure Findings where
  hits : List Path
  skipped : List (Path × Fault)
deriving DecidableEq, Repr

namespace Findings

def none : Findings := ⟨[], []⟩

def append (a b : Findings) : Findings := ⟨a.hits ++ b.hits, a.skipped ++ b.skipped⟩

/-- The findings of the entries of a directory, joined in the order of the entries' names. -/
def inNameOrder (parts : List (FileName × Findings)) : Findings :=
  ((parts.mergeSort fun a b => decide (a.1 ≤ b.1)).map (·.2)).foldr append none

end Findings

namespace Node

/-- Why a directory cannot be read that is reached through one with these permission bits. -/
def unreadable? (above : Mode) (path : Path) (folder : Folder) : Option Fault :=
  if FileSystem.pathLimit < path.bytes.length then some (.os .nameTooLong)
  else if above.searchable && folder.mode.readable then .none
  else some (.os .denied)

mutual

/-- What a search finds at and below one entry, `above` the permission bits of its directory. -/
def findings (pattern : Text) (above : Mode) (path : Path) (name : FileName) : Node → Findings
  | leaf _ => ⟨if pattern.occursIn (Utf8.decode name) then [path] else [], []⟩
  | dir folder es =>
    let own := if pattern.occursIn (Utf8.decode name) then [path] else []
    match unreadable? above path folder with
    | some fault => ⟨own, [(path, fault)]⟩
    | .none => (Findings.mk own []).append
        (Findings.inNameOrder (findingsIn pattern folder.mode path es))

def findingsIn (pattern : Text) (above : Mode) (path : Path) :
    List (FileName × Node) → List (FileName × Findings)
  | [] => []
  | (name, node) :: rest =>
    (name, findings pattern above (path.join ⟨name⟩) name node) ::
      findingsIn pattern above path rest

end

end Node

/-- Everything below a directory whose name contains the pattern, parents before what they hold.
Links are told of and not entered; a directory that cannot be read is told of apart and does not end
the search. -/
def FileSystem.search (fs : FileSystem) (root : Path) (pattern : Text) : Except Fault Findings := do
  let entries ← fs.list root
  match fs.folder? (← fs.locate root) with
  | some folder =>
    return Findings.inNameOrder (Node.findingsIn pattern folder.mode root entries)
  | .none => return Findings.none

end FileShell
