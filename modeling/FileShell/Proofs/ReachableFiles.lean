import FileShell.Proofs.RunMoments
import FileShell.Proofs.WellFormed

namespace FileShell

/-- A property of file systems that no call of a command ends. -/
structure FileSystem.IsKept (P : FileSystem → Prop) : Prop where
  makeDirectory : ∀ {fs after path}, P fs → fs.makeDirectory path = .ok after → P after
  removeDirectory : ∀ {fs after path}, P fs → fs.removeDirectory path = .ok after → P after
  removeFile : ∀ {fs after path}, P fs → fs.removeFile path = .ok after → P after
  removeTree : ∀ {fs}, P fs → ∀ path, P (fs.removeTree path).files
  rename : ∀ {fs after path new}, P fs → fs.rename path new = .ok after → P after
  copy : ∀ {fs}, P fs → ∀ path target, P (fs.copy path target).files

/-- Whatever a permission change does to files, it does not end a property of theirs. -/
def PermissionControl.Keeps (control : PermissionControl) (P : FileSystem → Prop) : Prop :=
  ∀ calls fs path mode after, control.setMode calls fs path mode = .ok after → P fs → P after

def Surroundings.Keeps (s : Surroundings) (P : FileSystem → Prop) : Prop :=
  ∀ control, s.permissions = some control → control.Keeps P

theorem FileSystem.WellFormed.isKept : IsKept WellFormed where
  makeDirectory := WellFormed.makeDirectory
  removeDirectory := WellFormed.removeDirectory
  removeFile := WellFormed.removeFile
  removeTree := WellFormed.removeTree
  rename := WellFormed.rename
  copy := WellFormed.copy

theorem PermissionControl.native_keeps_wellFormed : native.Keeps FileSystem.WellFormed :=
  fun _ _ _ _ _ hok h => h.changeMode hok

theorem Surroundings.keeps_wellFormed {s : Surroundings} (hs : s.permissions = some .native) :
    s.Keeps FileSystem.WellFormed := by
  intro control hcontrol
  obtain rfl := Option.some.inj (hs.symm.trans hcontrol)
  exact PermissionControl.native_keeps_wellFormed

theorem FileSystem.empty_wellFormed (clock : Instant) : (FileSystem.empty clock).WellFormed := by
  have hroot {place : Place} {item : Item} (h : (FileSystem.empty clock).item? place = some item) :
      place = [] ∧ item = .directory 0o755#12 := by
    cases place with
    | nil => exact ⟨rfl, (Option.some.inj h).symm⟩
    | cons name rest => cases h
  refine ⟨trivial, fun place item h => ?_, fun place id target mode h => ?_⟩
  · simp [(hroot h).1]
  · cases (hroot h).2

variable {P : FileSystem → Prop}

theorem World.leave_keeps {w : World} (path : Path) {attempt : FileSystem.Attempt}
    (h : P attempt.files) : P (w.leave path attempt).world.files := by
  obtain ⟨files, failure⟩ := attempt
  cases failure <;> exact h

theorem World.apply_keeps {w : World} (h : P w.files) (path : Path)
    {result : Except Fault FileSystem} (hresult : ∀ after, result = .ok after → P after) :
    P (w.apply path result).world.files := by
  cases result with
  | error fault => exact h
  | ok after => exact hresult after rfl

namespace Command

open FileSystem

variable {w : World}

theorem runCp_keeps (hP : IsKept P) (h : P w.files) (args : List Text) :
    P (runCp w args).world.files := by
  unfold runCp
  split
  · dsimp only
    split_ifs
    · exact h
    · exact World.leave_keeps _ (hP.copy h _ _)
  · exact h

theorem runMv_keeps (hP : IsKept P) (h : P w.files) (args : List Text) :
    P (runMv w args).world.files := by
  unfold runMv
  split
  · dsimp only
    split
    · exact h
    · exact World.apply_keeps h _ fun after hok => hP.rename h hok
  · exact h

theorem runMkdir_keeps (hP : IsKept P) (h : P w.files) (args : List Text) :
    P (runMkdir w args).world.files := by
  unfold runMkdir
  split
  · exact h
  · exact World.apply_keeps h _ fun after hok => hP.makeDirectory h hok

theorem removal_keeps (hP : IsKept P) (h : P w.files) (recursive : Bool) (path : Path) :
    P (removal w recursive path).world.files := by
  unfold removal
  split
  · exact h
  · split
    · exact World.leave_keeps _ (hP.removeTree h path)
    · exact World.apply_keeps h _ fun after hok => hP.removeDirectory h hok
    · exact World.apply_keeps h _ fun after hok => hP.removeFile h hok

theorem runRm_keeps (hP : IsKept P) (h : P w.files) (args : List Text) :
    P (runRm w args).world.files := by
  unfold runRm
  split
  · exact h
  · split_ifs
    · exact h
    · exact removal_keeps hP h _ _
  · split_ifs
    · exact removal_keeps hP h _ _
    · exact removal_keeps hP h _ _

theorem runChmod_keeps (h : P w.files) {permissions : Option PermissionControl}
    (hkeeps : ∀ control, permissions = some control → control.Keeps P) (args : List Text) :
    P (runChmod permissions w args).world.files := by
  unfold runChmod
  split
  · exact h
  · next control =>
    split
    · split
      · exact h
      · dsimp only
        refine World.apply_keeps ?_ _ fun after hok => ?_
        · exact h
        · exact hkeeps control rfl _ _ _ _ after hok h
    · exact h

theorem Acts.files_eq {args : List Text} {c : Command} {e : Effect} (h : Acts w args c e)
    (hc : c ∉ altering) : e.world.files = w.files := by
  cases h with
  | looks c e h => rw [h]
  | moves => rfl
  | alters c hc' => exact absurd hc' hc
  | asks => exact absurd (by decide) hc
  | asksInVain => rfl
  | breaksOff => exact absurd (by decide) hc

theorem run_keeps (hP : IsKept P) {s : Surroundings} (hs : s.Keeps P) (h : P w.files)
    (args : List Text) (c : Command) : P (c.run s w args).world.files := by
  by_cases hc : c ∈ altering
  · cases c with
    | cp => exact runCp_keeps hP h args
    | mv => exact runMv_keeps hP h args
    | rm => exact runRm_keeps hP h args
    | mkdir => exact runMkdir_keeps hP h args
    | chmod => exact runChmod_keeps h hs args
    | _ => exact absurd hc (by decide)
  · rw [(run_acts s w args c).files_eq hc]
    exact h

theorem execute_keeps (hP : IsKept P) {s : Surroundings} (hs : s.Keeps P) (h : P w.files)
    (name : Text) (args : List Text) : P (execute s w name args).world.files := by
  unfold execute
  split
  · exact h
  · exact run_keeps hP hs h args _

end Command

namespace Shell

open FileSystem

theorem worldAfter_keeps (hP : IsKept P) {s : Settings} (hs : s.toSurroundings.Keeps P) {w : World}
    (h : P w.files) (r : Reading) : P (worldAfter s w r).files := by
  cases r with
  | line t =>
    cases hw : Text.words t with
    | nil => rwa [worldAfter_of_words_nil hw]
    | cons name args =>
      rw [worldAfter_of_words_cons hw]
      exact Command.execute_keeps hP hs h name args
  | _ => exact h

theorem foldl_worldAfter_keeps (hP : IsKept P) {s : Settings} (hs : s.toSurroundings.Keeps P)
    {w : World} (h : P w.files) (rs : List Reading) : P (rs.foldl (worldAfter s) w).files := by
  induction rs generalizing w with
  | nil => exact h
  | cons r rs ih => exact ih (worldAfter_keeps hP hs h r)

/-- What calls keep, a whole run keeps on any streams. -/
theorem run_keeps (hP : IsKept P) {s : Settings} (hs : s.toSurroundings.Keeps P)
    (source : LineSource) {shell : Shell} (h : P shell.world.files) :
    P (run s source shell).shell.world.files := by
  rw [(run_moments s source shell).2.1]
  exact foldl_worldAfter_keeps hP hs h _

theorem run_wellFormed {s : Settings} (hs : s.permissions = some .native) (source : LineSource)
    {shell : Shell} (h : shell.world.files.WellFormed) :
    (run s source shell).shell.world.files.WellFormed :=
  run_keeps WellFormed.isKept (Surroundings.keeps_wellFormed hs) source h

end Shell
end FileShell
