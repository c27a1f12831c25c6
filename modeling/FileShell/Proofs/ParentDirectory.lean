import FileShell.Proofs.RelativePaths
import Mathlib.Data.List.Induction

namespace FileShell

/-- The path by which the parent of a place is looked up. -/
def Place.up (place : Place) : Path := place.path.join ⟨Path.dotDot⟩

theorem Place.bytes_up (place : Place) : ∃ gap : Bytes, (∀ b ∈ gap, b = Path.slash) ∧
    place.up.bytes = place.path.bytes ++ (gap ++ Path.dotDot) := by
  have hrelative : (Path.mk Path.dotDot).isAbsolute = false := rfl
  obtain ⟨hbytes, -⟩ | ⟨hbytes, -⟩ := Path.bytes_join hrelative place.path
  · exact ⟨[], List.forall_mem_nil _, hbytes⟩
  · exact ⟨[Path.slash], by simp, hbytes⟩

namespace FileSystem

variable {fs : FileSystem} {dir place names : Place} {searchable : Bool}

/-- The place is a directory, and it and all directories above it may be searched. -/
def Passable (fs : FileSystem) (place : Place) : Prop :=
  ∀ init, init <+: place → fs.sight? init = some (.directory true)

theorem Passable.of_concat {n : FileName} (h : fs.Passable (place ++ [n])) : fs.Passable place :=
  fun init hinit => h init (hinit.trans (List.prefix_append place [n]))

theorem passable_concat_iff {n : FileName} :
    fs.Passable (place ++ [n]) ↔
      fs.Passable place ∧ fs.sight? (place ++ [n]) = some (.directory true) := by
  refine ⟨fun h => ⟨h.of_concat, h _ List.prefix_rfl⟩, fun ⟨habove, hself⟩ init hinit => ?_⟩
  obtain rfl | hinit := List.prefix_concat_iff.1 hinit
  · exact hself
  · exact habove init hinit

theorem Leads.pass_first {following : Following} {links : Nat} {slash : Bool} {c : Component}
    {rest : List Component} {b : Brink} (h : Leads fs following links dir slash (c :: rest) b) :
    fs.sight? dir = some (.directory true) := by
  cases h with
  | stop _ hpass _ => exact hpass
  | follow _ hpass _ _ _ => exact hpass
  | here _ hpass _ => exact hpass
  | up _ hpass _ => exact hpass
  | enter _ hpass _ _ _ => exact hpass
  | cross _ hpass _ _ _ => exact hpass

namespace Straight

theorem of_leads_append {following : Following} {links : Nat} {slash : Bool} {c : Component}
    {rest : List Component} {b : Brink}
    (h : Leads fs following links dir slash (names.map .name ++ c :: rest) b)
    (hdir : fs.sight? (dir ++ names) = some (.directory searchable)) :
    Straight fs dir names ∧ fs.sight? (dir ++ names) = some (.directory true) := by
  induction names generalizing dir with
  | nil =>
    rw [List.append_nil]
    exact ⟨.nil dir, h.pass_first⟩
  | cons n names ih =>
    obtain ⟨next, more, hmore⟩ : ∃ next more, names.map .name ++ c :: rest = next :: more :=
      List.exists_cons_of_ne_nil (by simp)
    have hchild : ∃ searchable, fs.sight? (dir ++ [n]) = some (.directory searchable) := by
      cases names with
      | nil => exact ⟨searchable, hdir⟩
      | cons m names =>
        rw [List.append_cons] at hdir
        exact (Stands.of_directory hdir).directory_of_append
    obtain ⟨_, hchild⟩ := hchild
    rw [List.append_cons] at hdir ⊢
    rw [List.map_cons, List.cons_append, hmore] at h
    cases h with
    | enter _ hpass hname _ h =>
      obtain ⟨hstraight, hself⟩ := ih (hmore ▸ h) hdir
      exact ⟨.cons hpass hname (.of_directory hchild) hstraight, hself⟩
    | cross _ _ _ hlink _ =>
      rw [hchild] at hlink
      cases hlink

theorem of_passable (hnames : ∀ n ∈ place, FileName.IsProper n) (h : fs.Passable place) :
    Straight fs [] place := by
  induction place using List.reverseRecOn with
  | nil => exact .nil []
  | append_singleton place n ih =>
    obtain ⟨habove, hself⟩ := passable_concat_iff.1 h
    have hstraight := ih (fun m hm => hnames m (List.mem_append_left _ hm)) habove
    exact hstraight.concat (habove _ List.prefix_rfl) (hnames n (by simp)).short (.of_directory hself)

theorem passable (h : Straight fs [] place) (hpass : fs.sight? place = some (.directory true)) :
    fs.Passable place := by
  rintro init ⟨rest, rfl⟩
  cases rest with
  | nil => simpa using hpass
  | cons n rest => exact h.pass

theorem canonicalFrom_append (h : Straight fs dir names)
    (hdir : fs.sight? (dir ++ names) = some (.directory searchable))
    (hlength : (dir ++ names).path.bytes.length < pathLimit)
    (again : Place → Bool → List Component → Except Fault Place) (slash : Bool)
    (rest : List Component) :
    fs.canonicalFrom again dir slash (names.map .name ++ rest) =
      fs.canonicalFrom again (dir ++ names) slash rest := by
  induction h with
  | nil dir => rw [List.append_nil]; rfl
  | @cons dir n names hpass hname hstands h ih =>
    have hshort : (dir ++ [n]).path.bytes.length < pathLimit := by
      have hle := Place.length_path_mono (⟨names, by simp⟩ : dir ++ [n] <+: dir ++ n :: names)
      omega
    obtain ⟨folder, es, hnode⟩ : ∃ folder es, fs.node? (dir ++ [n]) = some (.dir folder es) := by
      refine (fs.node?_eq_dir_iff _).2 ?_
      cases h with
      | nil => exact ⟨searchable, hdir⟩
      | cons hpass' _ _ _ => exact ⟨true, hpass'⟩
    have hnone : fs.linkTarget? (dir ++ [n]) = none := by
      refine Option.eq_none_iff_forall_ne_some.2 fun target hlink => ?_
      exact hstands.sight?_ne_link target ((fs.linkTarget?_eq_some_iff _ _).1 hlink)
    have hfound := nodeNamed_eq_ok_iff.2 ⟨hpass, hname, hnode⟩
    have hisdir : (Node.dir folder es).isDir = true := rfl
    have hrest := ih (by simpa using hdir) (by simpa using hlength)
    rw [List.append_assoc, List.singleton_append] at hrest
    rw [List.map_cons, List.cons_append, canonicalFrom_name, if_neg (Nat.lt_asymm hshort)]
    simp only [hfound, hnone, hisdir, Nat.ne_of_lt hshort, decide_false, Bool.and_false,
      Bool.not_true, Bool.false_eq_true, if_false]
    exact hrest

end Straight

theorem length_path_lt_of_up (h : place.up.bytes.length ≤ pathLimit) :
    place.path.bytes.length < pathLimit := by
  obtain ⟨gap, -, hbytes⟩ := place.bytes_up
  rw [hbytes, List.length_append, List.length_append] at h
  have hdots : Path.dotDot.length = 2 := rfl
  omega

theorem components_up (hnames : ∀ n ∈ place, FileName.IsProper n) :
    place.up.components = place.map .name ++ [.up] := by
  rw [Place.up, Path.components_join rfl, Place.components_path fun n hn => (hnames n hn).toIsPiece]
  rfl

@[simp] theorem isAbsolute_up (place : Place) : place.up.isAbsolute = true :=
  Path.isAbsolute_join _ _ (Place.isAbsolute_path place)

@[simp] theorem endsInSlash_up (place : Place) : place.up.endsInSlash = false := by
  rw [Place.up, Path.endsInSlash_join rfl _ (by decide)]
  rfl

theorem accept_up (hnames : ∀ n ∈ place, FileName.IsProper n)
    (hlength : place.up.bytes.length ≤ pathLimit) : accept place.up = .ok () := by
  obtain ⟨hnul, hne, -⟩ := accept_eq_ok_iff.1
    (accept_path hnames (Nat.le_of_lt (length_path_lt_of_up hlength)))
  obtain ⟨gap, hgap, hbytes⟩ := place.bytes_up
  refine accept_eq_ok_iff.2 ⟨?_, by simp [hbytes, hne], hlength⟩
  have hzero : (0 : UInt8) ∉ gap := fun h => by cases hgap 0 h
  simp [hbytes, hnul, hzero, Path.dotDot]

theorem locate_up (hnames : ∀ n ∈ place, FileName.IsProper n) (h : fs.Passable place)
    (hlength : place.up.bytes.length ≤ pathLimit) : fs.locate place.up = .ok place.parent := by
  have hself : fs.sight? place = some (.directory true) := h place List.prefix_rfl
  refine locate_eq_ok_iff.2 ⟨accept_up hnames hlength, ⟨place, some .up, false⟩, ?_, rfl⟩
  rw [walkPath_eq_ok_iff, outset_of_isAbsolute (isAbsolute_up place), components_up hnames,
    endsInSlash_up]
  refine leads_of_walk ?_
  rw [(Straight.of_passable hnames h).walk_append hself]
  exact walk_of_leads (.stop linkLimit hself nofun)

theorem canonical_up (hnames : ∀ n ∈ place, FileName.IsProper n) (h : fs.Passable place)
    (hlength : place.up.bytes.length ≤ pathLimit) : fs.canonical place.up = .ok place.parent := by
  obtain ⟨hnul, hne, -⟩ := accept_eq_ok_iff.1 (accept_up hnames hlength)
  rw [canonical_eq, if_neg (by simpa using hnul), if_neg (by simpa using hne),
    outset_of_isAbsolute (isAbsolute_up place), components_up hnames, endsInSlash_up]
  exact (Straight.of_passable hnames h).canonicalFrom_append (h place List.prefix_rfl)
    (length_path_lt_of_up hlength) _ _ _

/-- From a directory `..` leads to a directory only if all may be searched and the path is not too
long. -/
theorem isDirectory_up_iff (hnames : ∀ n ∈ place, FileName.IsProper n)
    (hdir : fs.sight? place = some (.directory searchable)) :
    fs.isDirectory place.up = true ↔ fs.Passable place ∧ place.up.bytes.length ≤ pathLimit := by
  constructor
  · intro hup
    obtain ⟨q, _, hlocate, -⟩ := isDirectory_iff.1 hup
    obtain ⟨haccept, b, hwalk, -⟩ := locate_eq_ok_iff.1 hlocate
    rw [walkPath_eq_ok_iff, outset_of_isAbsolute (isAbsolute_up place), components_up hnames] at hwalk
    obtain ⟨hstraight, hself⟩ := Straight.of_leads_append hwalk hdir
    exact ⟨hstraight.passable hself, (accept_eq_ok_iff.1 haccept).2.2⟩
  · rintro ⟨h, hlength⟩
    exact isDirectory_iff.2 ⟨place.parent, true, locate_up hnames h hlength,
      h _ (List.dropLast_prefix place)⟩

end FileSystem

theorem Session.resolve_dots (session : Session) : session.resolve "..".toList = session.place.up := by
  rw [resolve, session.home.expand_of_head_ne (by decide)]
  rfl

namespace World

variable {w : World}

/-- What `cd ..` does. -/
def goUp (w : World) (s : Surroundings) : Effect :=
  Command.execute s w Command.cd.name.toList ["..".toList]

/-- The session has a way up: its directory and all above that may be searched, and the path with `..`
behind the directory is not too long. -/
def HasWayUp (w : World) : Prop :=
  w.files.Passable w.session.place ∧
    (w.session.resolve "..".toList).bytes.length ≤ FileSystem.pathLimit

/-- `cd ..` comes to the world above if there is a way up, and else it is refused. -/
structure GoesUp (w : World) (s : Surroundings) (above : World) : Prop where
  done : w.HasWayUp → (w.goUp s).verdict = .done .stay ∧ (w.goUp s).world = above
  refused : ¬ w.HasWayUp → (w.goUp s).world = w ∧
    (w.goUp s).verdict = .failed (.directoryNotFound (w.session.resolve "..".toList))

theorem goesUp {searchable : Bool} (hnames : ∀ n ∈ w.session.place, FileName.IsProper n)
    (hdir : w.files.sight? w.session.place = some (.directory searchable)) (s : Surroundings) :
    w.GoesUp s { w with session := { w.session with place := w.session.place.parent } } := by
  have hiff := FileSystem.isDirectory_up_iff hnames hdir
  rw [← w.session.resolve_dots] at hiff
  obtain ⟨hworld, hverdict⟩ := Command.execute_name s w ["..".toList] .cd
  constructor
  · rintro ⟨hpass, hlength⟩
    have hdirectory := hiff.2 ⟨hpass, hlength⟩
    have hcanonical :
        w.files.canonical (w.session.resolve "..".toList) = .ok w.session.place.parent := by
      rw [w.session.resolve_dots] at hlength ⊢
      exact FileSystem.canonical_up hnames hpass hlength
    rw [goUp, hworld, hverdict, Command.run, Command.runCd]
    simp only [hdirectory, hcanonical]
    exact ⟨rfl, rfl⟩
  · intro hnone
    have hdirectory : w.files.isDirectory (w.session.resolve "..".toList) = false :=
      Bool.eq_false_iff.2 (mt hiff.1 hnone)
    rw [goUp, hworld, hverdict, Command.run, Command.runCd]
    simp only [hdirectory]
    exact ⟨rfl, rfl⟩

theorem place_of_cd_name (h : w.Sound) (s : Surroundings) {d : Text} {searchable : Bool} {flow : Flow}
    (hd : FileName.IsPiece (Utf8.encode d)) (hhome : d = ['~'] → w.session.home.path = none)
    (hdir : w.files.sight? (w.session.place ++ [Utf8.encode d]) = some (.directory searchable))
    (hdone : (Command.execute s w Command.cd.name.toList [d]).verdict = .done flow) :
    (Command.execute s w Command.cd.name.toList [d]).world.session.place =
      w.session.place ++ [Utf8.encode d] := by
  obtain ⟨arg, place, harg, -, hlocate, -, hworld⟩ := Session.clear_of_cd h.files s hdone
  obtain rfl : d = arg := Option.some.inj harg
  have hslash : '/' ∉ d := fun hmem => hd.noSlash (Path.slash_mem_encode.2 hmem)
  have hexpand : w.session.home.expand d = Path.ofText d := by
    rw [w.session.home.expand_of_slash_notMem hslash]
    split_ifs with htilde
    · rw [hhome htilde]
      rfl
    · rfl
  have hresolve : w.session.resolve d = w.session.place.path.join ⟨Utf8.encode d⟩ := by
    rw [Session.resolve, hexpand]
    rfl
  obtain ⟨-, b, hwalk, hsettle⟩ := FileSystem.locate_eq_ok_iff.1 hlocate
  have hpieces : ∀ n ∈ w.session.place, FileName.IsPiece n := fun n hn => (h.names n hn).toIsPiece
  rw [hresolve, FileSystem.walkPath_eq_ok_iff,
    FileSystem.outset_of_isAbsolute (Path.isAbsolute_join _ _ (Place.isAbsolute_path _)),
    Path.components_join_name hd, Place.components_path hpieces, ← List.map_singleton,
    ← List.map_append] at hwalk
  rw [hworld]
  exact (FileSystem.Straight.of_leads hwalk hsettle (.inr (.of_directory hdir))).1

end World

/-- Whatever commands have been run, `cd ..` moves the session from a directory that is still there to
the parent, which for the root is the root, or is refused if there is no way up. So it restores the
session after a `cd` to a directory in that of the session, be it named or come to otherwise, just if
the directory come to may be searched and has no path that is too long. -/
theorem Session.cd_parent {s : Surroundings} (hs : s.Keeps FileSystem.WellFormed)
    {fs : FileSystem} (hfs : fs.WellFormed) {home : Home} {path : Path}
    (hbase : path.isAbsolute = true ∨ fs.folder? fs.base ≠ none) {session : Session}
    (hstart : Session.start fs home path = .ok session) (steps : List (Text × List Text)) :
    let w := World.after s ⟨fs, session, []⟩ steps
    let cd (args : List Text) := Command.execute s w Command.cd.name.toList args
    (∀ folder es, w.files.node? w.session.place = some (.dir folder es) →
      w.GoesUp s { w with session := { w.session with place := w.session.place.parent } }) ∧
    (∀ args n flow, (cd args).verdict = .done flow →
      (cd args).world.session.place = w.session.place ++ [n] →
        (cd args).world.GoesUp s w ∧ ((cd args).world.HasWayUp ↔
          w.files.sight? (w.session.place ++ [n]) = some (.directory true) ∧
          ((cd args).world.session.resolve "..".toList).bytes.length ≤ FileSystem.pathLimit)) ∧
    ∀ d folder es flow, FileName.IsPiece (Utf8.encode d) →
      (d = ['~'] → w.session.home.path = none) →
      w.files.node? (w.session.place ++ [Utf8.encode d]) = some (.dir folder es) →
      (cd [d]).verdict = .done flow →
        (cd [d]).world.session.place = w.session.place ++ [Utf8.encode d] := by
  have hsound := (World.Sound.of_start hfs hbase hstart).after hs steps
  dsimp only
  generalize World.after s ⟨fs, session, []⟩ steps = w at hsound ⊢
  refine ⟨fun folder es hnode => ?_, fun args n flow hdone hchild => ?_,
    fun d folder es flow hd hhome hnode hdone => ?_⟩
  · obtain ⟨_, hdir⟩ := (w.files.node?_eq_dir_iff _).1 ⟨folder, es, hnode⟩
    exact World.goesUp hsound.names hdir s
  · obtain ⟨arg, place, -, -, -, hclear, hworld⟩ := Session.clear_of_cd hsound.files s hdone
    rw [hworld] at hchild ⊢
    obtain rfl : place = w.session.place ++ [n] := hchild
    obtain ⟨_, hdir⟩ := hclear.directory
    let below : World := { w with session := { w.session with place := w.session.place ++ [n] } }
    have hup := World.goesUp (w := below) hclear.names hdir s
    rw [Place.parent, List.dropLast_concat] at hup
    refine ⟨hup, and_congr_left' ⟨fun h => h _ List.prefix_rfl, fun h => ?_⟩⟩
    exact hclear.straight.passable h
  · obtain ⟨_, hdir⟩ := (w.files.node?_eq_dir_iff _).1 ⟨folder, es, hnode⟩
    exact World.place_of_cd_name hsound s hd hhome hdir hdone

/-- From the root to `d` and back. -/
theorem Session.cd_parent_of_child :
    let s : Surroundings := ⟨some .native, .universal⟩
    let w : World := ⟨besideLink, ⟨[], .unknown⟩, []⟩
    let below := (Command.execute s w Command.cd.name.toList [['d']]).world
    s.Keeps FileSystem.WellFormed ∧ besideLink.WellFormed ∧
      Session.start besideLink .unknown (Path.ofString "/") = .ok w.session ∧
      below.session.place = [[0x64]] ∧ below.HasWayUp ∧
      (below.goUp s).verdict = .done .stay ∧ (below.goUp s).world = w := by
  intro s w below
  have hkeeps : s.Keeps FileSystem.WellFormed := Surroundings.keeps_wellFormed rfl
  have hfiles : besideLink.WellFormed :=
    .of_places ⟨rfl, trivial, rfl, trivial, trivial⟩ (by decide) (by decide)
  have hstart : Session.start besideLink .unknown (Path.ofString "/") = .ok w.session := rfl
  have hdone : (Command.execute s w Command.cd.name.toList [['d']]).verdict = .done .stay := rfl
  obtain ⟨-, hback, hchild⟩ := Session.cd_parent hkeeps hfiles (.inl rfl) hstart []
  have hplace := hchild ['d'] ⟨0o755#12, 0⟩ [] .stay (by decide) nofun rfl hdone
  obtain ⟨hup, hway⟩ := hback [['d']] [0x64] .stay hdone hplace
  have hhasway : below.HasWayUp := hway.2 ⟨rfl, by decide⟩
  obtain ⟨hverdict, hworld⟩ := hup.done hhasway
  exact ⟨hkeeps, hfiles, hstart, hplace, hhasway, hverdict, hworld⟩

/-- A directory `d` that may not be searched. -/
def aboveLocked : FileSystem :=
  ⟨.dir ⟨0o755#12, 0⟩ [([0x64], .dir ⟨0, 0⟩ [])], fun _ => ⟨.pipe, 0, 0⟩, 0, []⟩

/-- A session that has come to a directory that may not be searched does not get back by `cd ..`. -/
theorem Session.cd_parent_refused :
    let s : Surroundings := ⟨none, .universal⟩
    let start : World := ⟨aboveLocked, ⟨[], .unknown⟩, []⟩
    let w := (Command.execute s start Command.cd.name.toList [['d']]).world
    Session.start aboveLocked .unknown (Path.ofString "/") = .ok start.session ∧
      (Command.execute s start Command.cd.name.toList [['d']]).verdict = .done .stay ∧
      w.session.place = [[0x64]] ∧ w.files.isDirectory w.session.directory = true ∧
      (w.goUp s).verdict = .failed (.directoryNotFound (Path.ofString "/d/..")) ∧
      (w.goUp s).world.session.place = [[0x64]] :=
  ⟨rfl, rfl, rfl, rfl, rfl, rfl⟩

end FileShell
