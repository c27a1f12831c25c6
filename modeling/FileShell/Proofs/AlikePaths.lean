import FileShell.Proofs.Operations
import FileShell.Proofs.Respelling

namespace FileShell

/-- No call tells the paths apart, nor the paths of what lies below them. -/
structure Path.Alike (path other : Path) : Prop where
  approach : ∀ (fs : FileSystem) following, fs.approach following path = fs.approach following other
  canonical : ∀ fs : FileSystem, fs.canonical path = fs.canonical other
  nul : path.bytes.findIdx? (· == 0) = other.bytes.findIdx? (· == 0)
  below : ∀ n : FileName, n.IsProper → (path.join ⟨n⟩).fileName = (other.join ⟨n⟩).fileName ∧
    ∀ (fs : FileSystem) following,
      fs.approach following (path.join ⟨n⟩) = fs.approach following (other.join ⟨n⟩)

namespace Path.Alike

variable {path other target target' : Path}

theorem refl (path : Path) : path.Alike path :=
  ⟨fun _ _ => rfl, fun _ => rfl, rfl, fun _ _ => ⟨rfl, fun _ _ => rfl⟩⟩

section Approach

variable (h : ∀ (fs : FileSystem) following, fs.approach following path = fs.approach following other)
  (fs : FileSystem)
include h

theorem locate_eq : fs.locate path = fs.locate other := by
  rw [FileSystem.locate_eq_approach, FileSystem.locate_eq_approach, h]

theorem locateEntry_eq : fs.locateEntry path = fs.locateEntry other := by
  rw [FileSystem.locateEntry_eq_approach, FileSystem.locateEntry_eq_approach, h]

theorem status_eq : fs.status path = fs.status other := by
  rw [FileSystem.status, FileSystem.status, locate_eq h]

theorem entryStatus_eq : fs.entryStatus path = fs.entryStatus other := by
  rw [FileSystem.entryStatus, FileSystem.entryStatus, locateEntry_eq h]

theorem openForReading_eq : fs.openForReading path = fs.openForReading other := by
  rw [FileSystem.openForReading, FileSystem.openForReading, locate_eq h]

theorem brink_eq : fs.brink path = fs.brink other := by
  rw [FileSystem.brink_eq_approach, FileSystem.brink_eq_approach, h]

theorem makeDirectory_eq : fs.makeDirectory path = fs.makeDirectory other := by
  rw [FileSystem.makeDirectory, FileSystem.makeDirectory, brink_eq h]

theorem removeDirectory_eq : fs.removeDirectory path = fs.removeDirectory other := by
  rw [FileSystem.removeDirectory, FileSystem.removeDirectory, brink_eq h]

theorem removeFile_eq : fs.removeFile path = fs.removeFile other := by
  rw [FileSystem.removeFile, FileSystem.removeFile, brink_eq h]

theorem openForWriting_eq (mode : Mode) :
    fs.openForWriting path mode = fs.openForWriting other mode := by
  have hcomes (p : Path) (k : Brink → Except Fault (LeafId × FileSystem)) :
      (do FileSystem.accept p; let b ← fs.walkPath .unlessSlashed p; k b) =
        fs.approach .unlessSlashed p >>= k := by
    rw [FileSystem.approach]
    cases FileSystem.accept p <;> rfl
  unfold FileSystem.openForWriting
  rw [hcomes, hcomes, h]

theorem removeTree_eq : fs.removeTree path = fs.removeTree other := by
  have hlast (fs : FileSystem) : fs.removeDirectory path = fs.removeDirectory other :=
    removeDirectory_eq h fs
  unfold FileSystem.removeTree
  simp only [locateEntry_eq h fs, hlast]

end Approach

section Calls

variable (h : path.Alike other) (htarget : target.Alike target') (fs : FileSystem)
include h

theorem reaches_eq : fs.reaches path = fs.reaches other := by
  rw [FileSystem.reaches, FileSystem.reaches, status_eq h.approach]

theorem isDirectory_eq : fs.isDirectory path = fs.isDirectory other := by
  rw [FileSystem.isDirectory, FileSystem.isDirectory, status_eq h.approach]

theorem isRegular_eq : fs.isRegular path = fs.isRegular other := by
  rw [FileSystem.isRegular, FileSystem.isRegular, status_eq h.approach]

theorem changeMode_eq (mode : Mode) : fs.changeMode path mode = fs.changeMode other mode := by
  rw [FileSystem.changeMode, FileSystem.changeMode, h.nul, locate_eq h.approach]

theorem ofPath_join_eq {n : FileName} (hn : n.IsProper) :
    Entry.ofPath fs (path.join ⟨n⟩) = Entry.ofPath fs (other.join ⟨n⟩) := by
  obtain ⟨hname, happroach⟩ := h.below n hn
  rw [Entry.ofPath, Entry.ofPath, hname, status_eq happroach, entryStatus_eq happroach]

theorem listing_eq (hfs : fs.WellFormed) : fs.listing path = fs.listing other := by
  rw [FileSystem.listing, FileSystem.listing]
  have hlist : fs.list path = fs.list other := by
    rw [FileSystem.list, FileSystem.list, locate_eq h.approach]
  rw [hlist]
  cases hentries : fs.list other with
  | error fault => rfl
  | ok entries =>
    obtain ⟨place, folder, hopens⟩ := FileSystem.list_eq_ok_iff.1 hentries
    have hsame : entries.map (fun e => Entry.ofPath fs (path.join ⟨e.1⟩)) =
        entries.map fun e => Entry.ofPath fs (other.join ⟨e.1⟩) := by
      apply List.map_congr_left
      rintro ⟨n, node⟩ hmem
      have hnode := FileSystem.node?_concat_of_mem hfs hopens.holds hmem
      exact h.ofPath_join_eq fs (hfs.isProper_of_node? hnode n (by simp))
    show Except.ok ((entries.map fun e => Entry.ofPath fs (path.join ⟨e.1⟩)).mergeSort _) = _
    rw [hsame]
    rfl

include htarget

theorem copy_eq : fs.copy path target = fs.copy other target' := by
  have hwrite (mode : Mode) : fs.openForWriting target mode = fs.openForWriting target' mode :=
    openForWriting_eq htarget.approach fs mode
  rw [FileSystem.copy, FileSystem.copy, openForReading_eq h.approach]
  simp only [hwrite]

theorem rename_eq : fs.rename path target = fs.rename other target' := by
  rw [FileSystem.rename, FileSystem.rename, brink_eq h.approach, brink_eq htarget.approach]

end Calls
end Path.Alike

namespace FileSystem.Respells

variable {path other : Path} (h : Respells path other)
include h

theorem canonical_eq (hslash : path.endsInSlash = other.endsInSlash) (fs : FileSystem) :
    fs.canonical path = fs.canonical other := by
  simp only [FileSystem.canonical_eq, outset, h.absolute, h.components, hslash,
    List.contains_iff_mem, h.nul, List.isEmpty_iff, h.spelled, h.spelled']

theorem join {n : FileName} (hn : n.IsProper) (hroom : path.bytes.length + (nameLimit + 1) ≤ pathLimit)
    (hroom' : other.bytes.length + (nameLimit + 1) ≤ pathLimit) :
    Respells (path.join ⟨n⟩) (other.join ⟨n⟩) := by
  have hrelative : (Path.mk n).isAbsolute = false := Path.isAbsolute_name hn.toIsPiece
  have hshort : (Path.mk n).bytes.length ≤ nameLimit := hn.short
  have hspelled (path : Path) : (path.join ⟨n⟩).bytes ≠ [] := by
    obtain ⟨hbytes, -⟩ | ⟨hbytes, -⟩ := Path.bytes_join hrelative path <;> simp [hbytes, hn.ne_nil]
  have hlength := Path.length_join_le hrelative path
  have hlength' := Path.length_join_le hrelative other
  refine ⟨?_, ?_, ?_, hspelled path, hspelled other, by omega, by omega⟩
  · rw [Path.isAbsolute_join_relative hrelative, Path.isAbsolute_join_relative hrelative, h.absolute]
  · rw [Path.components_join hrelative, Path.components_join hrelative, h.components]
  · rw [Path.mem_bytes_join hrelative _ (by decide), Path.mem_bytes_join hrelative _ (by decide), h.nul]

theorem alike (hslash : path.endsInSlash = other.endsInSlash) (hnul : (0 : UInt8) ∉ other.bytes)
    (hroom : path.bytes.length + (nameLimit + 1) ≤ pathLimit)
    (hroom' : other.bytes.length + (nameLimit + 1) ≤ pathLimit) : path.Alike other := by
  refine ⟨h.approach_eq hslash, h.canonical_eq hslash, ?_, fun n hn => ?_⟩
  · have hnone {path : Path} (hnul : (0 : UInt8) ∉ path.bytes) :
        path.bytes.findIdx? (· == 0) = none := by
      rw [List.findIdx?_eq_none_iff]
      intro b hb
      apply beq_false_of_ne
      rintro rfl
      exact hnul hb
    rw [hnone hnul, hnone (mt h.nul.1 hnul)]
  · have hjoin := h.join hn hroom hroom'
    refine ⟨?_, hjoin.approach_eq ?_⟩
    · rw [Path.fileName, Path.fileName, hjoin.components]
    · rw [Path.endsInSlash_join_name hn.toIsPiece, Path.endsInSlash_join_name hn.toIsPiece]

end FileSystem.Respells

namespace Failure

/-- Two failures that say the same, of paths that no call tells apart. -/
inductive Alike : Failure → Failure → Prop where
  | same (failure : Failure) : Alike failure failure
  | pathNotFound {path other : Path} (h : path.Alike other) :
      Alike (.pathNotFound path) (.pathNotFound other)
  | directoryNotFound {path other : Path} (h : path.Alike other) :
      Alike (.directoryNotFound path) (.directoryNotFound other)
  | notADirectory {path other : Path} (h : path.Alike other) :
      Alike (.notADirectory path) (.notADirectory other)
  | files {path other : Path} (h : path.Alike other) (fault : Fault) :
      Alike (.files path fault) (.files other fault)

theorem Alike.of_entryStatus {path other : Path} (h : path.Alike other) (fault : Fault) :
    Alike (if fault.isMissing then .pathNotFound path else .files path fault)
      (if fault.isMissing then .pathNotFound other else .files other fault) := by
  split_ifs
  · exact .pathNotFound h
  · exact .files h fault

end Failure

/-- Two effects that differ at most in how a path is spelled that they tell of. -/
structure Effect.Alike (e other : Effect) : Prop where
  files : e.world.files = other.world.files
  session : e.world.session = other.world.session
  output : e.output = other.output
  events : e.events = other.events
  verdict : e.verdict = other.verdict ∨ ∃ failure failure', e.verdict = .failed failure ∧
    other.verdict = .failed failure' ∧ failure.Alike failure'

namespace Effect.Alike

variable {w : World} {path other : Path}

theorem refl (e : Effect) : e.Alike e := ⟨rfl, rfl, rfl, rfl, .inl rfl⟩

theorem refuse {failure failure' : Failure} (h : failure.Alike failure') :
    (w.refuse failure).Alike (w.refuse failure') :=
  ⟨rfl, rfl, rfl, rfl, .inr ⟨failure, failure', rfl, rfl, h⟩⟩

theorem leave (h : path.Alike other) {w' : World} (hsession : w.session = w'.session)
    (attempt : FileSystem.Attempt) : (w.leave path attempt).Alike (w'.leave other attempt) := by
  obtain ⟨files, failure⟩ := attempt
  cases failure with
  | none => exact ⟨rfl, hsession, rfl, rfl, .inl rfl⟩
  | some fault => exact ⟨rfl, hsession, rfl, rfl, .inr ⟨_, _, rfl, rfl, .files h fault⟩⟩

theorem apply (h : path.Alike other) {w' : World} (hfiles : w.files = w'.files)
    (hsession : w.session = w'.session) (result : Except Fault FileSystem) :
    (w.apply path result).Alike (w'.apply other result) := by
  rw [World.apply, World.apply, hfiles]
  exact leave h hsession _

end Effect.Alike

namespace Command

open Path.Alike

variable {path other target target' : Path}

theorem removal_alike (h : path.Alike other) (w : World) (recursive : Bool) :
    (removal w recursive path).Alike (removal w recursive other) := by
  unfold removal
  rw [entryStatus_eq h.approach, removeTree_eq h.approach, removeDirectory_eq h.approach,
    removeFile_eq h.approach]
  cases w.files.entryStatus other with
  | error fault => exact .refuse (.of_entryStatus h fault)
  | ok status =>
    dsimp only
    cases decide (status.kind = .directory) with
    | false => exact .apply h rfl rfl _
    | true =>
      cases recursive with
      | false => exact .apply h rfl rfl _
      | true => exact .leave h rfl _

theorem culprit_alike (h : path.Alike other) (htarget : target.Alike target') (fs : FileSystem) :
    (culprit fs path target).Alike (culprit fs other target') := by
  unfold culprit
  rw [h.isRegular_eq, openForReading_eq h.approach]
  split_ifs
  · exact htarget
  · exact h

end Command

namespace Operation

variable {α : Type} {f g : α → Path}

/-- A command does the same to paths that no call tells apart. -/
theorem effect_alike (s : Surroundings)
    (hs : s.permissions = none ∨ s.permissions = some .native) (w : World)
    (hfs : w.files.WellFormed) {op : Operation α} (h : ∀ a ∈ op.operands, (f a).Alike (g a)) :
    ((op.map f).effect s w).Alike ((op.map g).effect s w) := by
  cases op with
  | enter dir =>
    have hdir : (f dir).Alike (g dir) := h dir (by simp [operands])
    dsimp only [map, effect]
    rw [hdir.isDirectory_eq, hdir.canonical]
    split_ifs
    · exact .refuse (.directoryNotFound hdir)
    · cases w.files.canonical (g dir) with
      | error fault => exact .refuse (.files hdir fault)
      | ok place => exact .refl _
  | list path =>
    have hpath : (f path).Alike (g path) := h path (by simp [operands])
    dsimp only [map, effect]
    rw [hpath.reaches_eq, hpath.isDirectory_eq, hpath.listing_eq _ hfs]
    split_ifs
    · exact .refuse (.pathNotFound hpath)
    · exact .refuse (.notADirectory hpath)
    · cases w.files.listing (g path) with
      | error fault => exact .refuse (.files hpath fault)
      | ok entries => exact .refl _
  | make dir =>
    have hdir : (f dir).Alike (g dir) := h dir (by simp [operands])
    dsimp only [map, effect]
    rw [Path.Alike.makeDirectory_eq hdir.approach]
    exact .apply hdir rfl rfl _
  | remove recursive path => exact Command.removal_alike (h path (by simp [operands])) w recursive
  | copy source target =>
    have hsource : (f source).Alike (g source) := h source (by simp [operands])
    have htarget : (f target).Alike (g target) := h target (by simp [operands])
    dsimp only [map, effect]
    rw [hsource.reaches_eq, hsource.copy_eq htarget]
    split_ifs
    · exact .refuse (.pathNotFound hsource)
    · exact .leave (Command.culprit_alike hsource htarget w.files) rfl _
  | move source target =>
    have hsource : (f source).Alike (g source) := h source (by simp [operands])
    have htarget : (f target).Alike (g target) := h target (by simp [operands])
    dsimp only [map, effect]
    unfold Command.absent?
    rw [Path.Alike.entryStatus_eq hsource.approach, hsource.rename_eq htarget]
    cases w.files.entryStatus (g source) with
    | error fault => exact .refuse (.of_entryStatus hsource fault)
    | ok status => exact .apply hsource rfl rfl _
  | permit mode path =>
    have hpath : (f path).Alike (g path) := h path (by simp [operands])
    dsimp only [map, effect]
    obtain hs | hs := hs
    · rw [hs]
      exact .refl _
    · rw [hs]
      dsimp only
      cases Mode.parse? mode with
      | none => exact .refl _
      | some m =>
        dsimp only [PermissionControl.native]
        rw [hpath.changeMode_eq]
        refine .apply hpath ?_ ?_ _
        · rfl
        · rfl

end Operation
end FileShell
