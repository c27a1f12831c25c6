import FileShell.Proofs.ClearDirectories
import FileShell.Proofs.ReachableFiles
import FileShell.Proofs.Utf8Codec

namespace FileShell

/-- An absolute path of names alone: nothing empty and no dots between its slashes, and no slash at
its end. -/
def Path.IsPlain (path : Path) : Prop :=
  path.bytes = [slash] ∨ ∃ names, names ≠ [] ∧ path.bytes.splitOn slash = [] :: names ∧
    ∀ n ∈ names, n ≠ [] ∧ n ≠ dot ∧ n ≠ dotDot

theorem Path.intercalate_slash (n : Bytes) (place : Place) :
    [slash].intercalate (n :: place) = n ++ place.flatMap (slash :: ·) := by
  induction place generalizing n with
  | nil => simp
  | cons m place ih =>
    rw [List.intercalate_cons_cons, ih, List.flatMap_cons]
    simp

theorem Place.isPlain_path {place : Place} (hplace : ∀ n ∈ place, n.IsPiece) :
    place.path.IsPlain := by
  by_cases hempty : place = []
  · subst hempty
    exact .inl rfl
  · refine .inr ⟨place, hempty, ?_, fun n hn => ?_⟩
    · have hbytes := Path.intercalate_slash [] place
      rw [List.nil_append] at hbytes
      rw [bytes_path, if_neg hempty, ← hbytes]
      refine List.splitOn_intercalate Path.slash ?_ (List.cons_ne_nil [] place)
      intro n hn
      obtain rfl | hn := List.mem_cons.1 hn
      · exact List.not_mem_nil
      · exact (hplace n hn).noSlash
    · exact ⟨(hplace n hn).ne_nil, (hplace n hn).ne_dot, (hplace n hn).ne_dotDot⟩

namespace Home

theorem expand_of_isAbsolute (home : Home) {t : Text} (h : (Path.ofText t).isAbsolute = true) :
    home.expand t = Path.ofText t := by
  unfold expand
  split
  · cases h
  · cases h
  · rfl

end Home

/-- The world after commands have been run, each with its name and its arguments. -/
def World.after (s : Surroundings) (w : World) (steps : List (Text × List Text)) : World :=
  steps.foldl (fun w step => (Command.execute s w step.1 step.2).world) w

namespace Command

theorem Acts.session_eq {w : World} {args : List Text} {c : Command} {e : Effect}
    (h : Acts w args c e) (hc : c ≠ cd) : e.world.session = w.session := by
  cases h with
  | looks c e h => rw [h]
  | moves => exact absurd rfl hc
  | _ => rfl

theorem runCd_cases (w : World) (args : List Text) :
    (∃ failure, runCd w args = w.refuse failure) ∨
      ∃ arg place, args.head? = some arg ∧ w.files.isDirectory (w.session.resolve arg) = true ∧
        w.files.canonical (w.session.resolve arg) = .ok place ∧
        (runCd w args).world = { w with session := { w.session with place } } ∧
        (runCd w args).verdict = .done .stay := by
  unfold runCd
  cases args with
  | nil => exact .inl ⟨_, rfl⟩
  | cons arg args =>
    dsimp only
    split_ifs with hdirectory
    · exact .inl ⟨_, rfl⟩
    · cases hcanonical : w.files.canonical (w.session.resolve arg) with
      | error fault => exact .inl ⟨_, rfl⟩
      | ok place =>
        exact .inr ⟨arg, place, rfl, by simpa using hdirectory, hcanonical, rfl, rfl⟩

end Command

namespace Session

open FileSystem

variable {fs : FileSystem} {session : Session} {path : Path}

theorem isAbsolute_resolve (session : Session) (arg : Text) :
    (session.resolve arg).isAbsolute = true :=
  Path.isAbsolute_join _ _ (Place.isAbsolute_path session.place)

/-- What a session is when it has come to a directory under some path: where all links of the path
lead, which is a directory, with no link among those above it; to canonicalize its own path again, or
to change to that path as it is printed, leaves it as it is. -/
structure Settled (session : Session) (fs : FileSystem) (path : Path) : Prop where
  canonical : fs.canonical path = .ok session.place
  leads : ∀ q, fs.locate path = .ok q → q = session.place
  directory : fs.isDirectory session.directory = true
  above : ∀ init, init <+: session.place → ∃ status, fs.entryStatus (Place.path init) = .ok status ∧
    status.kind = .directory
  again : fs.canonical session.directory = .ok session.place
  printed : ∀ t, session.directory.bytes = Utf8.encode t → session.directory.display = t ∧
    ∀ s calls, let e := Command.execute s ⟨fs, session, calls⟩ Command.cd.name.toList [t]
      e.world = ⟨fs, session, calls⟩ ∧ e.verdict = .done .stay

theorem resolve_printed {t : Text} (h : session.directory.bytes = Utf8.encode t) :
    session.resolve t = session.directory := by
  have hpath : Path.ofText t = session.directory := congrArg Path.mk h.symm
  have habsolute : (Path.ofText t).isAbsolute = true :=
    hpath ▸ Place.isAbsolute_path session.place
  rw [resolve, session.home.expand_of_isAbsolute habsolute, Path.join, if_pos habsolute, hpath]

theorem settled_of_clear (hcanonical : fs.canonical path = .ok session.place)
    (hclear : fs.Clear session.place) : session.Settled fs path where
  canonical := hcanonical
  leads := by
    intro q hq
    obtain ⟨-, b, hwalk, hsettle⟩ := locate_eq_ok_iff.1 hq
    exact (arrives_of_canonical hcanonical).eq_of_leads (walkPath_eq_ok_iff.1 hwalk) hsettle
  directory := hclear.isDirectory
  above := fun init hinit => (hclear.of_above hinit).entryStatus
  again := hclear.canonical
  printed := by
    intro t ht
    refine ⟨by rw [Path.display, ht, Utf8.decode_encode], fun s calls => ?_⟩
    have hresolve : session.resolve t = session.place.path := resolve_printed ht
    obtain ⟨hran, hverdict⟩ := Command.execute_name s ⟨fs, session, calls⟩ [t] .cd
    dsimp only
    rw [hran, hverdict, Command.run, Command.runCd]
    simp only [hresolve, hclear.isDirectory, hclear.canonical]
    exact ⟨rfl, rfl⟩

theorem start_eq_ok {home : Home} (h : start fs home path = .ok session) :
    fs.canonical path = .ok session.place ∧ fs.isDirectory session.directory = true := by
  obtain ⟨place, hcanonical, h⟩ := bind_eq_ok_iff.1 h
  split_ifs at h with hdirectory
  obtain rfl := Except.ok.inj h
  exact ⟨hcanonical, hdirectory⟩

theorem clear_of_cd {w : World} (hfs : w.files.WellFormed) (s : Surroundings) {args : List Text}
    {flow : Flow} (hdone : (Command.execute s w Command.cd.name.toList args).verdict = .done flow) :
    ∃ arg place, args.head? = some arg ∧ w.files.canonical (w.session.resolve arg) = .ok place ∧
      w.files.locate (w.session.resolve arg) = .ok place ∧ w.files.Clear place ∧
      (Command.execute s w Command.cd.name.toList args).world =
        { w with session := { w.session with place } } := by
  obtain ⟨hran, hverdict⟩ := Command.execute_name s w args .cd
  rw [hverdict, Command.run] at hdone
  rw [hran, Command.run]
  rcases Command.runCd_cases w args with ⟨failure, hrefused⟩ |
    ⟨arg, place, harg, hdirectory, hcanonical, hworld, -⟩
  · rw [hrefused] at hdone
    cases hdone
  · have habsolute := w.session.isAbsolute_resolve arg
    obtain ⟨hlocate, hclear⟩ := clear_of_isDirectory hfs habsolute hcanonical hdirectory
    exact ⟨arg, place, harg, hcanonical, hlocate, hclear, hworld⟩

/-- A `cd` that is done leaves the session settled in the directory that its operand leads to. -/
theorem settled_of_cd {w : World} (hfs : w.files.WellFormed) (s : Surroundings) {args : List Text}
    {flow : Flow} (hdone : (Command.execute s w Command.cd.name.toList args).verdict = .done flow) :
    let e := Command.execute s w Command.cd.name.toList args
    ∃ arg, args.head? = some arg ∧
      w.files.locate (w.session.resolve arg) = .ok e.world.session.place ∧
      e.world.session.Settled e.world.files (w.session.resolve arg) := by
  obtain ⟨arg, place, harg, hcanonical, hlocate, hclear, hworld⟩ := clear_of_cd hfs s hdone
  dsimp only
  rw [hworld]
  exact ⟨arg, harg, hlocate, settled_of_clear hcanonical hclear⟩

end Session

/-- What holds of the files and of the session at all times. -/
structure World.Sound (w : World) : Prop where
  files : w.files.WellFormed
  names : ∀ n ∈ w.session.place, FileName.IsProper n

namespace World.Sound

variable {w : World} {s : Surroundings}

theorem of_start {fs : FileSystem} (hfs : fs.WellFormed) {home : Home} {path : Path}
    (hbase : path.isAbsolute = true ∨ fs.folder? fs.base ≠ none) {session : Session}
    (hstart : Session.start fs home path = .ok session) : World.Sound ⟨fs, session, []⟩ := by
  obtain ⟨hcanonical, hdirectory⟩ := Session.start_eq_ok hstart
  exact ⟨hfs, (FileSystem.clear_of_isDirectory_path hfs hbase hcanonical hdirectory).names⟩

theorem execute (h : w.Sound) (hs : s.Keeps FileSystem.WellFormed) (name : Text)
    (args : List Text) : (Command.execute s w name args).world.Sound := by
  refine ⟨Command.execute_keeps FileSystem.WellFormed.isKept hs h.files name args, ?_⟩
  unfold Command.execute
  split
  · exact h.names
  · next c _ =>
    -- Only `cd` moves the session, and it moves it to a clear directory.
    by_cases hc : c = .cd
    · subst hc
      rcases Command.runCd_cases w args with ⟨failure, hrefused⟩ |
        ⟨arg, place, -, hdirectory, hcanonical, hworld, -⟩
      · have hsame : (Command.run s w args .cd).world = w := congrArg Effect.world hrefused
        dsimp only
        rw [hsame]
        exact h.names
      · have hmoved : (Command.run s w args .cd).world =
            { w with session := { w.session with place } } := hworld
        have habsolute := w.session.isAbsolute_resolve arg
        dsimp only
        rw [hmoved]
        exact (FileSystem.clear_of_isDirectory h.files habsolute hcanonical hdirectory).2.names
    · dsimp only
      rw [(Command.run_acts s w args c).session_eq hc]
      exact h.names

theorem after (h : w.Sound) (hs : s.Keeps FileSystem.WellFormed) (steps : List (Text × List Text)) :
    (w.after s steps).Sound := by
  induction steps generalizing w with
  | nil => exact h
  | cons step steps ih => exact ih (h.execute hs step.1 step.2)

end World.Sound

/-- The directory of a session is spelled plainly after any commands, and whatever is resolved against
it is absolute. When the session has started, and after every `cd` that is done, it is the canonical
directory that the path given leads to. -/
theorem Session.directory_canonical {s : Surroundings} (hs : s.Keeps FileSystem.WellFormed)
    {fs : FileSystem} (hfs : fs.WellFormed) {home : Home} {path : Path}
    (hbase : path.isAbsolute = true ∨ fs.folder? fs.base ≠ none) {session : Session}
    (hstart : Session.start fs home path = .ok session) (steps : List (Text × List Text)) :
    let w := World.after s ⟨fs, session, []⟩ steps
    session.Settled fs path ∧ w.session.directory.IsPlain ∧
      (∀ arg, (w.session.resolve arg).isAbsolute = true) ∧
      ∀ args flow, let e := Command.execute s w Command.cd.name.toList args
        e.verdict = .done flow → ∃ arg, args.head? = some arg ∧
          w.files.locate (w.session.resolve arg) = .ok e.world.session.place ∧
          e.world.session.Settled e.world.files (w.session.resolve arg) := by
  obtain ⟨hcanonical, hdirectory⟩ := start_eq_ok hstart
  have hclear : fs.Clear session.place :=
    FileSystem.clear_of_isDirectory_path hfs hbase hcanonical hdirectory
  have hstarted : World.Sound ⟨fs, session, []⟩ := ⟨hfs, hclear.names⟩
  have hsound := hstarted.after hs steps
  dsimp only
  generalize World.after s ⟨fs, session, []⟩ steps = w at hsound ⊢
  refine ⟨settled_of_clear hcanonical hclear, ?_, w.session.isAbsolute_resolve, ?_⟩
  · exact Place.isPlain_path fun n hn => (hsound.names n hn).toIsPiece
  · intro args flow hdone
    exact settled_of_cd hsound.files s hdone

/-- A directory `d`, and a link `l` to it. -/
def besideLink : FileSystem :=
  ⟨.dir ⟨0o755#12, 0⟩ [([0x64], .dir ⟨0o755#12, 0⟩ []), ([0x6C], .leaf 0)],
    fun _ => ⟨.link ⟨[0x64]⟩, 0o777#12, 0⟩, 0, []⟩

/-- A session that starts at the link is in the directory, and says so when that is gone. -/
theorem Session.directory_canonical_of_link :
    let s : Surroundings := ⟨some .native, .universal⟩
    let session : Session := ⟨[[0x64]], .unknown⟩
    let w := World.after s ⟨besideLink, session, []⟩
      [(Command.rm.name.toList, [Command.recursiveFlag, ['/', 'd']])]
    s.Keeps FileSystem.WellFormed ∧ besideLink.WellFormed ∧
      Session.start besideLink .unknown (Path.ofString "/l") = .ok session ∧
      session.Settled besideLink (Path.ofString "/l") ∧
      w.files.isDirectory w.session.directory = false ∧ w.session.directory.IsPlain := by
  have hkeeps : Surroundings.Keeps ⟨some .native, .universal⟩ FileSystem.WellFormed :=
    Surroundings.keeps_wellFormed rfl
  have hfiles : besideLink.WellFormed :=
    .of_places ⟨rfl, trivial, rfl, trivial, trivial⟩ (by decide) (by decide)
  have hstart : Session.start besideLink .unknown (Path.ofString "/l") =
      .ok ⟨[[0x64]], .unknown⟩ := rfl
  obtain ⟨hsettled, hplain, -⟩ := Session.directory_canonical hkeeps hfiles (.inl rfl) hstart
    [(Command.rm.name.toList, [Command.recursiveFlag, ['/', 'd']])]
  exact ⟨hkeeps, hfiles, hstart, hsettled, rfl, hplain⟩

end FileShell
