import FileShell.Proofs.CanonicalPaths
import FileShell.Proofs.RelativePaths

namespace FileShell

namespace Path

theorem eq_slash_of_piecesFrom_eq_nil {bs : Bytes} (h : piecesFrom [] bs = []) :
    ∀ b ∈ bs, b = slash := by
  induction bs with
  | nil => exact nofun
  | cons b bs ih =>
    rw [piecesFrom] at h
    split_ifs at h with hslash
    · exact List.forall_mem_cons.2 ⟨hslash, ih h⟩
    · exact absurd h (piecesFrom_ne_nil (List.cons_ne_nil b []) bs)

theorem components_ne_nil_of_endsInSlash_eq_false {path : Path} (hne : path.bytes ≠ [])
    (hend : path.endsInSlash = false) : path.components ≠ [] := by
  intro h
  have hlast := eq_slash_of_piecesFrom_eq_nil (List.map_eq_nil_iff.1 h) _ (List.getLast_mem hne)
  rw [endsInSlash, List.getLast?_eq_some_getLast hne, hlast] at hend
  exact absurd hend (by decide)

section Relative

variable {arg : Path} (harg : arg.isAbsolute = false) (path : Path)
include harg

theorem length_join_le : (path.join arg).bytes.length ≤ path.bytes.length + (arg.bytes.length + 1) := by
  obtain ⟨hbytes, -⟩ | ⟨hbytes, -⟩ := bytes_join harg path
  · have hlength := congrArg List.length hbytes
    rw [List.length_append] at hlength
    omega
  · have hlength := congrArg List.length hbytes
    rw [List.length_append, List.length_cons] at hlength
    exact Nat.le_of_eq hlength

theorem mem_bytes_join {b : UInt8} (hb : b ≠ slash) :
    b ∈ (path.join arg).bytes ↔ b ∈ path.bytes ∨ b ∈ arg.bytes := by
  obtain ⟨hbytes, -⟩ | ⟨hbytes, -⟩ := bytes_join harg path
  · rw [hbytes, List.mem_append]
  · rw [hbytes, List.mem_append, List.mem_cons]
    simp [hb]

end Relative
end Path

/-- A brink with a slash behind it. -/
def Brink.slashed (b : Brink) : Brink := { b with slash := true }

namespace FileSystem

variable {fs : FileSystem} {following : Following} {path other : Path} {dir place : Place} {b : Brink}

/-- Two spellings of the same components, neither of them too long. -/
structure Respells (path other : Path) : Prop where
  absolute : path.isAbsolute = other.isAbsolute
  components : path.components = other.components
  nul : (0 : UInt8) ∈ path.bytes ↔ 0 ∈ other.bytes
  spelled : path.bytes ≠ []
  spelled' : other.bytes ≠ []
  short : path.bytes.length ≤ pathLimit
  short' : other.bytes.length ≤ pathLimit

/-- A walk goes the same way as another that follows links alike, whatever becomes of their slashes. -/
theorem walkFrom_eq_map {f : Brink → Brink} {more : Following}
    {again again' : Place → Bool → List Component → Except Fault Brink} {slash slash' : Bool}
    (hfollows : more.follows slash' = following.follows slash)
    (hf : ∀ dir last, f ⟨dir, last, slash⟩ = ⟨dir, last, slash'⟩)
    (hagain : ∀ dir asked cs, again' dir (slash' || asked) cs = f <$> again dir (slash || asked) cs)
    (dir : Place) (cs : List Component) :
    fs.walkFrom more again' dir slash' cs = f <$> fs.walkFrom following again dir slash cs := by
  have hend (dir : Place) (last : Option Component) :
      (.ok ⟨dir, last, slash'⟩ : Except Fault Brink) = f <$> .ok ⟨dir, last, slash⟩ :=
    congrArg Except.ok (hf dir last).symm
  induction cs generalizing dir with
  | nil => exact hend dir none
  | cons c rest ih =>
    rw [walkFrom_cons, walkFrom_cons, hfollows]
    cases fs.turn (following.follows slash) dir c rest with
    | fail fault => rfl
    | stop => exact hend dir (some c)
    | enter next => exact ih next
    | cross start asked cs => exact hagain start asked cs

theorem walk_always_slashed (links : Nat) (dir : Place) (slash : Bool) (cs : List Component) :
    fs.walk .always links dir true cs = Brink.slashed <$> fs.walk .always links dir slash cs := by
  induction links generalizing dir slash cs with
  | zero =>
    rw [walk]
    apply walkFrom_eq_map
    · rfl
    · exact fun _ _ => rfl
    · exact fun _ _ _ => rfl
  | succ links ih =>
    rw [walk]
    apply walkFrom_eq_map
    · rfl
    · exact fun _ _ => rfl
    · exact fun dir asked cs => ih dir (slash || asked) cs

theorem walk_whenSlashed (links : Nat) (dir : Place) (cs : List Component) :
    fs.walk .whenSlashed links dir true cs = id <$> fs.walk .always links dir true cs := by
  induction links generalizing dir cs with
  | zero =>
    rw [walk, walk]
    apply walkFrom_eq_map
    · rfl
    · exact fun _ _ => rfl
    · exact fun _ _ _ => rfl
  | succ links ih =>
    rw [walk, walk]
    apply walkFrom_eq_map
    · rfl
    · exact fun _ _ => rfl
    · exact fun dir _ cs => ih dir cs

theorem Leads.dir_isDirectory {links : Nat} {slash : Bool} {cs : List Component}
    (h : Leads fs following links dir slash cs b)
    (hdir : cs = [] → ∃ searchable, fs.sight? dir = some (.directory searchable)) :
    ∃ searchable, fs.sight? b.dir = some (.directory searchable) := by
  induction h with
  | start links dir slash => exact hdir rfl
  | stop links hpass _ => exact ⟨true, hpass⟩
  | @follow links dir slash n target b hpass _ _ _ ih =>
    -- A target without components is the root, or nothing at all.
    refine ih fun _ => ?_
    unfold origin
    split_ifs
    · cases dir with
      | nil => exact ⟨true, hpass⟩
      | cons m rest =>
        have hstands : fs.Stands ([] ++ m :: rest) := .of_directory hpass
        exact hstands.directory_of_append
    · exact ⟨true, hpass⟩
  | here links hpass h ih => exact ih nofun
  | up links hpass h ih => exact ih nofun
  | enter links hpass hname hchild h ih => exact ih nofun
  | cross links hpass hname hlink h ih => exact ih fun hnil => by simp at hnil

/-- What a slash behind a path asks of the place. -/
def asDirectory (fs : FileSystem) (place : Place) : Except Fault Place :=
  match fs.node? place with
  | some (.dir _ _) => .ok place
  | _ => fail .notDirectory

theorem asDirectory_eq_ok {searchable : Bool} (h : fs.sight? place = some (.directory searchable)) :
    fs.asDirectory place = .ok place := by
  obtain ⟨folder, es, hnode⟩ := (fs.node?_eq_dir_iff place).2 ⟨searchable, h⟩
  rw [asDirectory, hnode]

theorem settle_slashed (hdir : ∃ searchable, fs.sight? b.dir = some (.directory searchable)) :
    fs.settle b.slashed = fs.settle b >>= fs.asDirectory := by
  obtain ⟨searchable, hdir⟩ := hdir
  obtain ⟨dir, last, slash⟩ := b
  unfold settle Brink.slashed
  cases last with
  | none => exact (asDirectory_eq_ok hdir).symm
  | some c =>
    cases c with
    | here => exact (asDirectory_eq_ok hdir).symm
    | up =>
      have hparent : ∃ searchable, fs.sight? dir.parent = some (.directory searchable) := by
        obtain rfl | ⟨init, n, rfl⟩ := List.eq_nil_or_concat dir
        · exact ⟨searchable, hdir⟩
        · rw [List.concat_eq_append] at hdir
          rw [Place.parent, List.concat_eq_append, List.dropLast_concat]
          exact (Stands.of_directory hdir).directory_of_append
      obtain ⟨searchable, hparent⟩ := hparent
      exact (asDirectory_eq_ok hparent).symm
    | name n =>
      dsimp only
      split_ifs with hlong
      · rfl
      · cases hnode : fs.node? (dir ++ [n]) with
        | none => rfl
        | some node =>
          cases node with
          | leaf id => cases slash <;> simp [Node.isDir, asDirectory, hnode]
          | dir folder es => simp [Node.isDir, asDirectory, hnode]

section Less

variable {less more : Following} (hmore : ∀ slash, less.follows slash = true → more.follows slash = true)
include hmore

theorem walkFrom_eq_error {again again' : Place → Bool → List Component → Except Fault Brink}
    {fault : Fault} (hagain : ∀ dir slash cs, again dir slash cs = .error fault →
      again' dir slash cs = .error fault) {slash : Bool} {cs : List Component}
    (h : fs.walkFrom less again dir slash cs = .error fault) :
    fs.walkFrom more again' dir slash cs = .error fault := by
  induction cs generalizing dir with
  | nil => cases h
  | cons c rest ih =>
    rw [walkFrom_cons] at h ⊢
    -- A walk that ends does not fail, so that both make the same turn.
    obtain hturn | hturn := turn_eq_or_stop (hmore slash) dir c rest
    · rw [hturn]
      cases hless : fs.turn (less.follows slash) dir c rest with
      | fail other =>
        rw [hless] at h
        exact h
      | stop =>
        rw [hless] at h
        cases h
      | enter next =>
        rw [hless] at h
        exact ih h
      | cross start asked cs =>
        rw [hless] at h
        exact hagain _ _ _ h
    · rw [hturn] at h
      cases h

theorem walk_eq_error {links : Nat} {slash : Bool} {cs : List Component} {fault : Fault}
    (h : fs.walk less links dir slash cs = .error fault) :
    fs.walk more links dir slash cs = .error fault := by
  induction links generalizing dir slash cs with
  | zero =>
    rw [walk] at h ⊢
    exact walkFrom_eq_error hmore (fun _ _ _ hfail => hfail) h
  | succ links ih =>
    rw [walk] at h ⊢
    exact walkFrom_eq_error hmore (fun _ _ _ hfail => ih hfail) h

end Less

theorem locate_eq_locateEntry (hfs : fs.WellFormed)
    (hdir : ∀ place, fs.locateEntry path = .ok place →
      ∃ searchable, fs.sight? place = some (.directory searchable)) :
    fs.locate path = fs.locateEntry path := by
  have hless : ∀ slash, Following.whenSlashed.follows slash = true →
      Following.always.follows slash = true := fun _ _ => rfl
  rw [locateEntry_eq_approach] at hdir ⊢
  rw [locate_eq_approach]
  have hsame : fs.approach .always path = fs.approach .whenSlashed path := by
    unfold approach at hdir ⊢
    cases haccept : accept path with
    | error fault =>
      -- Said without the walks, which would be compared first.
      show (Except.error fault : Except Fault Brink) = .error fault
      rfl
    | ok u =>
      rw [haccept, ok_bind] at hdir
      rw [ok_bind, ok_bind]
      cases hwalk : fs.walkPath .whenSlashed path with
      | error fault =>
        rw [walkPath] at hwalk ⊢
        rw [walk_eq_error hless hwalk]
      | ok b =>
        rw [hwalk, ok_bind] at hdir
        have hleads := walkPath_eq_ok_iff.1 hwalk
        refine walkPath_eq_ok_iff.2 (hleads.following_mono hless fun n target hlast hlink => ?_)
        -- A link at the brink is where the path leads, and that is no directory.
        obtain ⟨id, hnode⟩ := node?_of_sight?_link hlink
        have hshort : n.length ≤ nameLimit := (hfs.isProper_of_node? hnode n (by simp)).short
        have hslash : b.slash = false := hleads.follows_eq_false hlast hlink
        have hsettle : fs.settle b = .ok (b.dir ++ [n]) :=
          (settle_name_eq_ok_iff hlast).2 ⟨hshort, rfl, _, hnode, fun hs => by simp [hslash] at hs⟩
        obtain ⟨searchable, hsight⟩ := hdir _ hsettle
        rw [hlink] at hsight
        cases hsight
  rw [hsame]

namespace Respells

variable (h : Respells path other)
include h

theorem accept_eq : accept path = accept other := by
  rw [accept_eq_of_short h.spelled h.short, accept_eq_of_short h.spelled' h.short']
  simp only [h.nul]

theorem walkPath_eq (hslash : path.endsInSlash = other.endsInSlash) (fs : FileSystem)
    (following : Following) : fs.walkPath following path = fs.walkPath following other := by
  rw [walkPath, walkPath, h.absolute, h.components, hslash]

theorem approach_eq (hslash : path.endsInSlash = other.endsInSlash) (fs : FileSystem)
    (following : Following) : fs.approach following path = fs.approach following other := by
  rw [approach, approach, h.accept_eq, h.walkPath_eq hslash]

section Slashed

variable (hslash : other.endsInSlash = true)
include hslash

theorem approach_always (fs : FileSystem) :
    fs.approach .always other = Brink.slashed <$> fs.approach .always path := by
  have hwalk : fs.walkPath .always other = Brink.slashed <$> fs.walkPath .always path := by
    rw [walkPath, walkPath, ← h.absolute, ← h.components, hslash]
    exact walk_always_slashed _ _ _ _
  rw [approach, approach, ← h.accept_eq, hwalk]
  cases accept path <;> rfl

omit h in
theorem approach_whenSlashed (fs : FileSystem) :
    fs.approach .whenSlashed other = fs.approach .always other := by
  simp only [approach, walkPath, hslash, walk_whenSlashed, id_map]

/-- With a slash behind it, a path leads where it leads without, if a directory is there. -/
theorem locate_slashed (hcs : path.components ≠ []) (fs : FileSystem) :
    fs.locate other = fs.locate path >>= fs.asDirectory := by
  rw [locate_eq_approach, locate_eq_approach, h.approach_always hslash]
  cases hcomes : fs.approach .always path with
  | error fault => rfl
  | ok b =>
    obtain ⟨u, -, hwalk⟩ := bind_eq_ok_iff.1 hcomes
    exact settle_slashed ((walkPath_eq_ok_iff.1 hwalk).dir_isDirectory fun hnil => absurd hnil hcs)

omit h in
theorem locateEntry_slashed (fs : FileSystem) : fs.locateEntry other = fs.locate other := by
  rw [locateEntry_eq_approach, locate_eq_approach, approach_whenSlashed hslash]

theorem list_slashed (hcs : path.components ≠ []) (fs : FileSystem) :
    fs.list other = fs.list path := by
  rw [list, list, h.locate_slashed hslash hcs]
  cases fs.locate path with
  | error fault => rfl
  | ok place =>
    rw [ok_bind, ok_bind, asDirectory]
    cases hnode : fs.node? place with
    | none => rfl
    | some node =>
      cases node with
      | leaf id => rfl
      | dir folder es =>
        dsimp only
        rw [ok_bind, hnode]

end Slashed
end Respells
end FileSystem
end FileShell
