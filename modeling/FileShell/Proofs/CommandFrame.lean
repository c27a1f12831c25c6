import FileShell.Proofs.Streams
import FileShell.Shell
import Mathlib.Tactic.SplitIfs

namespace FileShell

theorem World.files_of_leave {w : World} {path : Path} {attempt : FileSystem.Attempt} {flow : Flow}
    (h : (w.leave path attempt).verdict = .done flow) :
    attempt = ⟨(w.leave path attempt).world.files, none⟩ := by
  obtain ⟨files, failure⟩ := attempt
  cases failure with
  | none => rfl
  | some fault => cases h

theorem World.files_of_apply {w : World} {path : Path} {result : Except Fault FileSystem}
    {flow : Flow} (h : (w.apply path result).verdict = .done flow) :
    result = .ok (w.apply path result).world.files := by
  cases result with
  | error fault => cases h
  | ok files => rfl

namespace Command

/-- The commands that may change files. -/
def altering : List Command := [cp, mv, rm, mkdir, chmod]

/-- All that a command can do to the world that it is run in. -/
inductive Acts (w : World) (args : List Text) : Command → Effect → Prop where
  | looks (c : Command) (e : Effect) (h : e.world = w)
      (hleave : e.verdict = .done .leave → c = exit) (hcrash : e.verdict = .crashed → c = ls) :
      Acts w args c e
  | moves (place : Place) (events : List Event) :
      Acts w args cd ⟨{ w with session := { w.session with place } }, [], .done .stay, events⟩
  | alters (c : Command) (hc : c ∈ altering) (files : FileSystem) :
      Acts w args c ⟨{ w with files }, [], .done .stay, []⟩
  | asks (calls : List (Path × Mode)) (files : FileSystem) :
      Acts w args chmod ⟨{ w with files, calls }, [], .done .stay, []⟩
  | asksInVain (calls : List (Path × Mode)) (failure : Failure) :
      Acts w args chmod ⟨{ w with calls }, [], .failed failure, []⟩
  | breaksOff (files : FileSystem) (failure : Failure) (h : args.head? = some recursiveFlag) :
      Acts w args rm ⟨{ w with files }, [], .failed failure, []⟩

theorem acts_refuse (w : World) (args : List Text) (c : Command) (failure : Failure) :
    Acts w args c (w.refuse failure) := .looks c _ rfl nofun nofun

theorem acts_finish (w : World) (args : List Text) (c : Command) (output : Text) :
    Acts w args c (w.finish output) := .looks c _ rfl nofun nofun

theorem acts_leave (w : World) (args : List Text) {c : Command} (hc : c ∈ altering) (path : Path)
    {attempt : FileSystem.Attempt} (h : attempt.Spares w.files) :
    Acts w args c (w.leave path attempt) := by
  obtain ⟨files, failure⟩ := attempt
  cases failure with
  | none => exact .alters c hc files
  | some fault =>
    obtain rfl : files = w.files := h fault rfl
    exact acts_refuse w args c _

theorem acts_apply (w : World) (args : List Text) {c : Command} (hc : c ∈ altering) (path : Path)
    (result : Except Fault FileSystem) : Acts w args c (w.apply path result) :=
  acts_leave w args hc path (FileSystem.Attempt.whole_spares w.files result)

theorem runLs_acts (zone : Zone) (w : World) (args : List Text) :
    Acts w args ls (runLs zone w args) := by
  unfold runLs
  dsimp only
  split_ifs
  · exact acts_refuse w args ls _
  · exact acts_refuse w args ls _
  · split
    · exact acts_refuse w args ls _
    · split_ifs
      · exact acts_finish w args ls _
      · exact .looks ls _ rfl nofun fun _ => rfl

theorem runSearch_acts (w : World) (args : List Text) : Acts w args search (runSearch w args) := by
  unfold runSearch
  split
  · exact acts_refuse w _ search _
  · split
    · exact acts_refuse w _ search _
    · exact .looks search _ rfl nofun nofun

theorem runCd_acts (w : World) (args : List Text) : Acts w args cd (runCd w args) := by
  unfold runCd
  split
  · exact acts_refuse w _ cd _
  · dsimp only
    split_ifs
    · exact acts_refuse w _ cd _
    · split
      · exact acts_refuse w _ cd _
      · exact .moves _ _

theorem runCp_acts (w : World) (args : List Text) : Acts w args cp (runCp w args) := by
  unfold runCp
  split
  · dsimp only
    split_ifs
    · exact acts_refuse w _ cp _
    · exact acts_leave w _ (by decide) _ (w.files.copy_spares _ _)
  · exact acts_refuse w _ cp _

theorem runMv_acts (w : World) (args : List Text) : Acts w args mv (runMv w args) := by
  unfold runMv
  split
  · dsimp only
    split
    · exact acts_refuse w _ mv _
    · exact acts_apply w _ (by decide) _ _
  · exact acts_refuse w _ mv _

theorem runMkdir_acts (w : World) (args : List Text) : Acts w args mkdir (runMkdir w args) := by
  unfold runMkdir
  split
  · exact acts_refuse w _ mkdir _
  · exact acts_apply w _ (by decide) _ _

theorem removal_acts (w : World) (args : List Text) (recursive : Bool) (path : Path)
    (h : recursive = true → args.head? = some recursiveFlag) :
    Acts w args rm (removal w recursive path) := by
  unfold removal
  split
  · exact acts_refuse w args rm _
  · split
    · generalize w.files.removeTree path = attempt
      obtain ⟨files, failure⟩ := attempt
      cases failure with
      | none => exact .alters rm (by decide) files
      | some fault => exact .breaksOff files _ (h rfl)
    · exact acts_apply w args (by decide) _ _
    · exact acts_apply w args (by decide) _ _

theorem runRm_acts (w : World) (args : List Text) : Acts w args rm (runRm w args) := by
  unfold runRm
  split
  · exact acts_refuse w _ rm _
  · split_ifs
    · exact acts_refuse w _ rm _
    · exact removal_acts w _ false _ (by simp)
  · split_ifs with hflag
    · exact removal_acts w _ true _ (by simp [hflag])
    · exact removal_acts w _ false _ (by simp)

theorem runChmod_acts (permissions : Option PermissionControl) (w : World) (args : List Text) :
    Acts w args chmod (runChmod permissions w args) := by
  unfold runChmod
  split
  · exact acts_finish w _ chmod _
  · next control =>
    split
    · next raw target rest =>
      split
      · exact acts_refuse w _ chmod _
      · next mode hmode =>
        dsimp only
        cases control.setMode w.calls w.files (w.session.resolve target) mode with
        | ok files => exact .asks _ files
        | error fault => exact .asksInVain _ _
    · exact acts_refuse w _ chmod _

theorem run_acts (s : Surroundings) (w : World) (args : List Text) (c : Command) :
    Acts w args c (c.run s w args) := by
  cases c with
  | cd => exact runCd_acts w args
  | chmod => exact runChmod_acts s.permissions w args
  | cp => exact runCp_acts w args
  | exit => exact .looks exit _ rfl (fun _ => rfl) nofun
  | help => exact acts_finish w args help _
  | ls => exact runLs_acts s.zone w args
  | mkdir => exact runMkdir_acts w args
  | mv => exact runMv_acts w args
  | pwd => exact acts_finish w args pwd _
  | rm => exact runRm_acts w args
  | search => exact runSearch_acts w args

theorem name_of_ofName? {name : Text} {c : Command} (h : ofName? name = some c) :
    name = c.name.toList := by
  have hc := List.find?_some h
  exact (eq_of_beq hc).symm

theorem execute_name (s : Surroundings) (w : World) (args : List Text) (c : Command) :
    (execute s w c.name.toList args).world = (c.run s w args).world ∧
      (execute s w c.name.toList args).verdict = (c.run s w args).verdict := by
  cases c <;> exact ⟨rfl, rfl⟩

/-- A name that is run either is a command's, which then acts, or changes nothing. -/
theorem execute_acts (s : Surroundings) (w : World) (name : Text) (args : List Text) :
    (∃ failure, execute s w name args = w.refuse failure) ∨
      ∃ c e, name = c.name.toList ∧ Acts w args c e ∧
        (execute s w name args).world = e.world ∧ (execute s w name args).output = e.output ∧
        (execute s w name args).verdict = e.verdict := by
  unfold execute
  split
  · exact .inl ⟨_, rfl⟩
  · next c hc =>
    exact .inr ⟨c, _, name_of_ofName? hc, run_acts s w args c, rfl, rfl, rfl⟩

theorem execute_leaves_iff (s : Surroundings) (w : World) (name : Text) (args : List Text) :
    (execute s w name args).verdict = .done .leave ↔ name = exit.name.toList := by
  constructor
  · intro hleave
    obtain ⟨failure, hrefused⟩ | ⟨c, e, hname, hacts, -, -, he⟩ := execute_acts s w name args
    · simp [hrefused, World.refuse] at hleave
    · rw [he] at hleave
      cases hacts with
      | looks c e h hexit _ => rw [hname, hexit hleave]
      | _ => simp at hleave
  · rintro rfl
    rfl

theorem name_of_execute_crashed {s : Surroundings} {w : World} {name : Text} {args : List Text}
    (hcrash : (execute s w name args).verdict = .crashed) : name = ls.name.toList := by
  obtain ⟨failure, hrefused⟩ | ⟨c, e, hname, hacts, -, -, he⟩ := execute_acts s w name args
  · simp [hrefused, World.refuse] at hcrash
  · rw [he] at hcrash
    cases hacts with
    | looks c e h _ hls => rw [hname, hls hcrash]
    | _ => simp at hcrash

end Command

namespace Shell

@[simp] theorem dispatch_world (s : Surroundings) (shell : Shell) (name : Text) (args : List Text) :
    (shell.dispatch s name args).1.world = (Command.execute s shell.world name args).world := by
  unfold dispatch
  dsimp only
  split <;> rfl

theorem dispatch_verdict_of_silent (s : Surroundings) (shell : Shell) (name : Text)
    (args : List Text) (h : (Command.execute s shell.world name args).output = []) :
    (shell.dispatch s name args).2 = (Command.execute s shell.world name args).verdict := by
  unfold dispatch
  simp only [h, Sink.write_nil]

theorem moved_of_dispatch {s : Surroundings} {shell : Shell} {name : Text} {args : List Text}
    (h : (shell.dispatch s name args).1.world.session ≠ shell.world.session) :
    name = Command.cd.name.toList ∧ (shell.dispatch s name args).2 = .done .stay := by
  have hverdict := dispatch_verdict_of_silent s shell name args
  rw [dispatch_world] at h
  obtain ⟨failure, hrefused⟩ | ⟨c, e, hname, hacts, hworld, houtput, he⟩ :=
    Command.execute_acts s shell.world name args
  · exact absurd (by rw [hrefused]; rfl) h
  · rw [houtput, he] at hverdict
    rw [hworld] at h
    cases hacts with
    | looks c e hsame => exact absurd (congrArg World.session hsame) h
    | moves place events => exact ⟨hname, hverdict rfl⟩
    | _ => exact absurd rfl h

/-- On any streams, `cd` alone moves the session and only when it is done, five commands alone
change files, and a failure has changed neither unless a directory was being emptied. -/
theorem dispatch_frame (s : Surroundings) (shell : Shell) (name : Text) (args : List Text) :
    let before := shell.world
    let after := (shell.dispatch s name args).1.world
    let verdict := (shell.dispatch s name args).2
    (after.session ≠ before.session →
      name = Command.cd.name.toList ∧ verdict = .done .stay) ∧
    (name ∉ Command.altering.map (·.name.toList) → after.files = before.files) ∧
    (∀ failure, verdict = .failed failure →
      after.session = before.session ∧
      (after.files ≠ before.files →
        name = Command.rm.name.toList ∧ args.head? = some Command.recursiveFlag)) := by
  intro before after verdict
  refine ⟨moved_of_dispatch, ?_⟩
  have hafter : after = (Command.execute s before name args).world :=
    dispatch_world s shell name args
  -- Only a silent command changes anything, so that a refused write hides no change.
  have hverdict := dispatch_verdict_of_silent s shell name args
  obtain ⟨failure, hrefused⟩ | ⟨c, e, hname, hacts, hworld, houtput, he⟩ :=
    Command.execute_acts s before name args
  · have hsame : after = before := by rw [hafter, hrefused]; rfl
    simp [hsame]
  · rw [houtput, he] at hverdict
    rw [hworld] at hafter
    cases hacts with
    | looks c e h =>
      have hsame : after = before := hafter.trans h
      simp [hsame]
    | moves place events =>
      have hv : verdict = .done .stay := hverdict rfl
      simp [hafter, hv, hname]
    | alters c hc files =>
      have hv : verdict = .done .stay := hverdict rfl
      have hmem : name ∈ Command.altering.map (·.name.toList) :=
        List.mem_map.2 ⟨c, hc, hname.symm⟩
      simp [hafter, hv, hmem]
    | asks calls files =>
      have hv : verdict = .done .stay := hverdict rfl
      have hmem : name ∈ Command.altering.map (·.name.toList) :=
        List.mem_map.2 ⟨.chmod, by decide, hname.symm⟩
      simp [hafter, hv, hmem]
    | asksInVain calls failure => simp [hafter]
    | breaksOff files failure h =>
      have hmem : name ∈ Command.altering.map (·.name.toList) :=
        List.mem_map.2 ⟨.rm, by decide, hname.symm⟩
      have hsession : after.session = before.session := by rw [hafter]
      exact ⟨fun hn => absurd hmem hn, fun _ _ => ⟨hsession, fun _ => ⟨hname, h⟩⟩⟩

end Shell
end FileShell
