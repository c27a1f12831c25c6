import FileShell.Proofs.DirectoryListings
import FileShell.Proofs.SessionDirectory
import FileShell.Proofs.TextPaths

namespace FileShell

namespace FileSystem

variable {fs : FileSystem} {following : Following} {path arg : Path} {dir place names : Place}

theorem walkFrom_more {again more : Place → Bool → List Component → Except Fault Brink}
    (hmore : ∀ dir slash cs, again dir slash cs ≠ fail .tooManyLinks →
      more dir slash cs = again dir slash cs) {slash : Bool} {cs : List Component}
    (h : fs.walkFrom following again dir slash cs ≠ fail .tooManyLinks) :
    fs.walkFrom following more dir slash cs = fs.walkFrom following again dir slash cs := by
  induction cs generalizing dir with
  | nil => rfl
  | cons c rest ih =>
    rw [walkFrom_cons] at h
    rw [walkFrom_cons, walkFrom_cons]
    cases hturn : fs.turn (following.follows slash) dir c rest with
    | fail fault => rfl
    | stop => rfl
    | enter next =>
      rw [hturn] at h
      exact ih h
    | cross start asked cs =>
      rw [hturn] at h
      exact hmore _ _ _ h

theorem walk_more {links more : Nat} (hle : links ≤ more) {slash : Bool} {cs : List Component}
    (h : fs.walk following links dir slash cs ≠ fail .tooManyLinks) :
    fs.walk following more dir slash cs = fs.walk following links dir slash cs := by
  induction links generalizing more dir slash cs with
  | zero =>
    rw [walk_eq_walkFrom fs following more]
    exact walkFrom_more (fun _ _ _ hfail => absurd rfl hfail) h
  | succ links ih =>
    obtain ⟨more, rfl⟩ := Nat.exists_eq_add_of_lt hle
    exact walkFrom_more (fun _ _ _ hagain => ih (by omega) hagain) h

theorem Straight.walk_append (h : Straight fs dir names) {searchable : Bool}
    (hdir : fs.sight? (dir ++ names) = some (.directory searchable)) (following : Following)
    (links : Nat) (slash : Bool) (c : Component) (rest : List Component) :
    fs.walk following links dir slash (names.map .name ++ c :: rest) =
      fs.walk following links (dir ++ names) slash (c :: rest) := by
  induction h with
  | nil dir => rw [List.append_nil]; rfl
  | @cons dir n names hpass hname hstands h ih =>
    have hchild : ∃ searchable, fs.sight? (dir ++ [n]) = some (.directory searchable) := by
      cases h with
      | nil => exact ⟨searchable, hdir⟩
      | cons hpass' _ _ _ => exact ⟨true, hpass'⟩
    obtain ⟨_, hchild⟩ := hchild
    have hrest := ih (by simpa using hdir)
    rw [List.append_assoc, List.singleton_append] at hrest
    rw [← hrest]
    cases names <;> exact walk_enter fs following links hpass hname hchild

theorem accept_eq_of_short (hne : path.bytes ≠ []) (hlength : path.bytes.length ≤ pathLimit) :
    accept path = if (0 : UInt8) ∈ path.bytes then .error .nulInPath else .ok () := by
  simp only [accept, List.contains_iff_mem, List.isEmpty_iff, if_neg hne,
    if_neg (Nat.not_lt.2 hlength)]

/-- Where a path comes to, with the links at its end followed or not. -/
def approach (fs : FileSystem) (following : Following) (path : Path) : Except Fault Brink := do
  accept path
  fs.walkPath following path

theorem brink_eq_approach (fs : FileSystem) (path : Path) :
    fs.brink path = fs.approach .never path := rfl

theorem locate_eq_approach (fs : FileSystem) (path : Path) :
    fs.locate path = fs.approach .always path >>= fs.settle := by
  rw [locate, approach]
  cases accept path <;> rfl

theorem locateEntry_eq_approach (fs : FileSystem) (path : Path) :
    fs.locateEntry path = fs.approach .whenSlashed path >>= fs.settle := by
  rw [locateEntry, approach]
  cases accept path <;> rfl

/-- A path within what the system allows: neither too long nor met by too many links. -/
structure WithinLimits (fs : FileSystem) (path : Path) : Prop where
  length : path.bytes.length ≤ pathLimit
  links : ∀ following, fs.approach following path ≠ fail .tooManyLinks

/-- What a relative path comes to from a directory is what it comes to behind a path that leads to
that directory. -/
theorem approach_join_eq_behind (hfs : fs.WellFormed) (hplace : fs.locate path = .ok place)
    (hclear : fs.Clear place) (harg : arg.isAbsolute = false) (hne : arg.bytes ≠ [])
    (hnear : (place.path.join arg).bytes.length ≤ pathLimit)
    (hfar : fs.WithinLimits (path.behind arg)) :
    fs.approach following (place.path.join arg) = fs.approach following (path.behind arg) := by
  obtain ⟨haccept, b, hwalk, hsettle⟩ := locate_eq_ok_iff.1 hplace
  obtain ⟨searchable, hdir⟩ := hclear.directory
  obtain ⟨hnul, hpath, -⟩ := accept_eq_ok_iff.1 haccept
  obtain ⟨hnul', hpath', -⟩ := accept_eq_ok_iff.1 (accept_path hclear.names hclear.length)
  obtain ⟨c, rest, hcs⟩ := List.exists_cons_of_ne_nil (Path.components_ne_nil harg hne)
  have hlimits := hfar.links following
  have haccepts : accept (place.path.join arg) = accept (path.behind arg) := by
    have hbytes : (0 : UInt8) ∈ (place.path.join arg).bytes ↔ 0 ∈ (path.behind arg).bytes := by
      obtain ⟨h, -⟩ | ⟨h, -⟩ := Path.bytes_join harg place.path <;>
        simp [h, Path.behind, hnul, hnul', Path.slash]
    have hsome : (place.path.join arg).bytes ≠ [] := by
      obtain ⟨h, -⟩ | ⟨h, -⟩ := Path.bytes_join harg place.path <;> simp [h, hne]
    rw [accept_eq_of_short hsome hnear, accept_eq_of_short (by simp [Path.behind]) hfar.length]
    simp only [hbytes]
  rw [approach] at hlimits ⊢
  rw [approach, haccepts]
  cases hok : accept (path.behind arg) with
  | error fault => rfl
  | ok u =>
    rw [hok, ok_bind] at hlimits
    rw [ok_bind, ok_bind]
    -- Both walks go on from the directory, the one behind `path` with fewer links to replace.
    have hfarwalk : ∃ fewer, fewer ≤ linkLimit ∧ fs.walkPath following (path.behind arg) =
        fs.walk following fewer place arg.endsInSlash (c :: rest) := by
      obtain ⟨fewer, hle, h⟩ := (walkPath_eq_ok_iff.1 hwalk).extend hfs hsettle hdir following c rest
        arg.endsInSlash
      refine ⟨fewer, hle, ?_⟩
      rw [← h, walkPath, Path.isAbsolute_behind hpath, Path.endsInSlash_behind path hne,
        Path.components_behind, hcs]
      rfl
    have hnearwalk : fs.walkPath following (place.path.join arg) =
        fs.walk following linkLimit place arg.endsInSlash (c :: rest) := by
      have h := hclear.straight.walk_append hdir following linkLimit arg.endsInSlash c rest
      rw [walkPath, Path.isAbsolute_join_relative harg, Place.isAbsolute_path, if_pos rfl,
        Path.endsInSlash_join harg _ hne, Path.components_join harg,
        Place.components_path fun n hn => (hclear.names n hn).toIsPiece, hcs, h]
      rfl
    obtain ⟨fewer, hle, hfarwalk⟩ := hfarwalk
    rw [hfarwalk] at hlimits ⊢
    rw [hnearwalk, walk_more hle hlimits]

end FileSystem

namespace Session

open FileSystem

theorem resolve_behind (session : Session) {a b : Text} (ha : a ≠ []) (hhome : a.head? ≠ some '~') :
    session.resolve (a ++ '/' :: b) = (session.resolve a).behind (Path.ofText b) := by
  have hhead : (a ++ '/' :: b).head? ≠ some '~' := by
    rwa [List.head?_append, List.head?_eq_some_head ha, Option.some_or, ← List.head?_eq_some_head]
  have hbytes : Path.ofText (a ++ '/' :: b) = (Path.ofText a).behind (Path.ofText b) := by
    rw [Path.behind, Path.ofText, Utf8.encode_append]
    rfl
  rw [resolve, resolve, session.home.expand_of_head_ne hhead, session.home.expand_of_head_ne hhome,
    hbytes]
  exact Path.join_behind _ (Utf8.encode_ne_nil ha) _

/-- What a relative path leads to after `cd`, or why it leads nowhere, is what it leads to behind the
operand of that `cd` before: the same node, whether a link at the end is followed or not, and the same
directory and name for what is to be made. -/
theorem lookups_after_cd {w : World} (hfs : w.files.WellFormed) (s : Surroundings) {a b : Text}
    (ha : a ≠ []) (hahome : a.head? ≠ some '~') (hb : b ≠ []) (hbhome : b.head? ≠ some '~')
    (hbroot : b.head? ≠ some '/') {flow : Flow}
    (hdone : (Command.execute s w Command.cd.name.toList [a]).verdict = .done flow) :
    let after := (Command.execute s w Command.cd.name.toList [a]).world
    let near := after.session.resolve b
    let far := w.session.resolve (a ++ '/' :: b)
    near.bytes.length ≤ pathLimit → w.files.WithinLimits far →
      after.files = w.files ∧
      after.files.locate near = w.files.locate far ∧
      after.files.locateEntry near = w.files.locateEntry far ∧
      after.files.brink near = w.files.brink far ∧
      ∀ following, after.files.approach following near = w.files.approach following far := by
  obtain ⟨hran, hverdict⟩ := Command.execute_name s w [a] .cd
  rw [hverdict, Command.run] at hdone
  dsimp only
  rw [hran, Command.run]
  rcases Command.runCd_cases w [a] with ⟨failure, hrefused⟩ |
    ⟨arg, place, harg, hdirectory, hcanonical, hworld, -⟩
  · rw [hrefused] at hdone
    cases hdone
  · obtain rfl : a = arg := Option.some.inj harg
    have habsolute := w.session.isAbsolute_resolve a
    obtain ⟨hlocate, hclear⟩ := clear_of_isDirectory hfs habsolute hcanonical hdirectory
    have hrelative : (Path.ofText b).isAbsolute = false := by
      rw [Path.isAbsolute_ofText]
      exact beq_false_of_ne hbroot
    have hresolve : ({ w.session with place } : Session).resolve b =
        place.path.join (Path.ofText b) := by
      rw [resolve, w.session.home.expand_of_head_ne hbhome]
      rfl
    rw [hworld, hresolve, w.session.resolve_behind ha hahome]
    intro hnear hfar
    have hsame (following : Following) :
        w.files.approach following (place.path.join (Path.ofText b)) =
          w.files.approach following ((w.session.resolve a).behind (Path.ofText b)) :=
      approach_join_eq_behind hfs hlocate hclear hrelative (Utf8.encode_ne_nil hb) hnear hfar
    refine ⟨rfl, ?_, ?_, ?_, hsame⟩
    · rw [locate_eq_approach, locate_eq_approach, hsame]
    · rw [locateEntry_eq_approach, locateEntry_eq_approach, hsame]
    · rw [brink_eq_approach, brink_eq_approach, hsame]

/-- From `l` and from `d`, which it leads to, `../l/` leads to `d`. -/
theorem lookups_after_cd_to_link :
    let w : World := ⟨besideLink, ⟨[], .unknown⟩, []⟩
    let s : Surroundings := ⟨some .native, .universal⟩
    let e := Command.execute s w Command.cd.name.toList [['l']]
    let near := e.world.session.resolve "../l/".toList
    let far := w.session.resolve ("l".toList ++ '/' :: "../l/".toList)
    w.files.WellFormed ∧ e.verdict = .done .stay ∧ near = Path.ofString "/d/../l/" ∧
      far = Path.ofString "/l/../l/" ∧ near.bytes.length ≤ pathLimit ∧
      w.files.WithinLimits far ∧ e.world.files.locate near = w.files.locate far ∧
      w.files.locate far = .ok [[0x64]] := by
  intro w s e near far
  have hfiles : w.files.WellFormed :=
    .of_places ⟨rfl, trivial, rfl, trivial, trivial⟩ (by decide) (by decide)
  have hdone : e.verdict = .done .stay := rfl
  have hsession : e.world.session = ⟨[[0x64]], .unknown⟩ := rfl
  have hnear : near = Path.ofString "/d/../l/" := by
    dsimp only [near]
    rw [hsession]
    rfl
  have hfar : far = Path.ofString "/l/../l/" := rfl
  -- Two links are met, so that room for two is enough.
  have hwalk (following : Following) : w.files.walk following 2 [] true
      [.name [0x6C], .up, .name [0x6C]] ≠ fail .tooManyLinks := by
    have hok : (besideLink.walk following 2 [] true
        [.name [0x6C], .up, .name [0x6C]]).toBool = true := by cases following <;> rfl
    intro hfail
    rw [hfail] at hok
    cases hok
  have hcomes (following : Following) : w.files.approach following (Path.ofString "/l/../l/") =
      w.files.walk following 2 [] true [.name [0x6C], .up, .name [0x6C]] := by
    have haccept : accept (Path.ofString "/l/../l/") = .ok () := rfl
    rw [approach, haccept, ok_bind]
    exact walk_more (by decide) (hwalk following)
  have hlimits : w.files.WithinLimits far := by
    rw [hfar]
    constructor
    · decide
    · intro following
      rw [hcomes]
      exact hwalk following
  have hshort : near.bytes.length ≤ pathLimit := by rw [hnear]; decide
  have hfound : w.files.locate far = .ok [[0x64]] := by
    rw [hfar, locate_eq_approach, hcomes]
    rfl
  have hsame := lookups_after_cd (w := w) (a := ['l']) (b := "../l/".toList) hfiles s
    (by decide) (by decide) (by decide) (by decide) (by decide) hdone hshort
    hlimits
  exact ⟨hfiles, hdone, hnear, hfar, hshort, hlimits, hsame.2.1, hfound⟩

end Session
end FileShell
