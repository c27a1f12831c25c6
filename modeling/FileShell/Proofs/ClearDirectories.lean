import FileShell.Proofs.CanonicalPaths

namespace FileShell

namespace FileSystem

variable {fs : FileSystem} {path : Path} {place init : Place}

theorem accept_path (hnames : ∀ n ∈ place, FileName.IsProper n)
    (hlength : place.path.bytes.length ≤ pathLimit) : accept place.path = .ok () := by
  refine accept_eq_ok_iff.2 ⟨?_, ?_, hlength⟩
  · rw [Place.bytes_path]
    split_ifs with hempty
    · decide
    · intro hnul
      obtain ⟨n, hn, hnul⟩ := List.mem_flatMap.1 hnul
      obtain hslash | hnul := List.mem_cons.1 hnul
      · cases hslash
      · exact (hnames n hn).noNul hnul
  · intro hempty
    have habsolute := Place.isAbsolute_path place
    simp [Path.isAbsolute, hempty] at habsolute

theorem outset_of_isAbsolute (h : path.isAbsolute = true) : fs.outset path = [] := if_pos h

theorem isDirectory_iff :
    fs.isDirectory path = true ↔ ∃ place searchable, fs.locate path = .ok place ∧
      fs.sight? place = some (.directory searchable) := by
  unfold isDirectory status
  cases hplace : fs.locate path with
  | error fault =>
    refine iff_of_false (fun h => by cases h) ?_
    rintro ⟨place, searchable, h, -⟩
    cases h
  | ok place =>
    rw [ok_bind, statusAt]
    have honly : (∃ place' searchable, Except.ok place = (.ok place' : Except Fault Place) ∧
        fs.sight? place' = some (.directory searchable)) ↔
        ∃ folder es, fs.node? place = some (.dir folder es) := by
      rw [fs.node?_eq_dir_iff]
      exact ⟨fun ⟨_, searchable, h, hdir⟩ => ⟨searchable, Except.ok.inj h ▸ hdir⟩,
        fun ⟨searchable, hdir⟩ => ⟨place, searchable, rfl, hdir⟩⟩
    rw [honly]
    cases fs.node? place with
    | none => exact iff_of_false (fun h => by cases h) fun ⟨_, _, h⟩ => by cases h
    | some node =>
      cases node with
      | leaf id =>
        refine iff_of_false (fun h => ?_) fun ⟨_, _, h⟩ => by cases h
        split at h
        · next heq => exact fs.kind_statusOf_leaf id (congrArg Status.kind (Except.ok.inj heq))
        · cases h
      | dir folder es => exact iff_of_true rfl ⟨folder, es, rfl⟩

/-- A directory that its own path leads down to. -/
structure Clear (fs : FileSystem) (place : Place) : Prop where
  names : ∀ n ∈ place, FileName.IsProper n
  straight : fs.Straight [] place
  directory : ∃ searchable, fs.sight? place = some (.directory searchable)
  length : place.path.bytes.length ≤ pathLimit

namespace Clear

theorem of_above (h : fs.Clear place) (hinit : init <+: place) : fs.Clear init := by
  obtain ⟨rest, rfl⟩ := hinit
  refine ⟨fun n hn => h.names n (List.mem_append_left rest hn), h.straight.of_append, ?_,
    Nat.le_trans (Place.length_path_mono (List.prefix_append init rest)) h.length⟩
  cases rest with
  | nil => simpa using h.directory
  | cons n rest => exact ⟨true, h.straight.pass⟩

theorem walkPath (h : fs.Clear place) (following : Following) :
    ∃ b, fs.walkPath following place.path = .ok b ∧ fs.settle b = .ok place := by
  obtain ⟨searchable, hdir⟩ := h.directory
  obtain ⟨b, hleads, hsettle⟩ :=
    h.straight.leads hdir following linkLimit place.path.endsInSlash
  refine ⟨b, ?_, hsettle⟩
  rw [walkPath_eq_ok_iff, outset_of_isAbsolute (Place.isAbsolute_path place),
    Place.components_path fun n hn => (h.names n hn).toIsPiece]
  exact hleads

theorem locate (h : fs.Clear place) : fs.locate place.path = .ok place :=
  locate_eq_ok_iff.2 ⟨accept_path h.names h.length, h.walkPath .always⟩

theorem locateEntry (h : fs.Clear place) : fs.locateEntry place.path = .ok place :=
  locateEntry_eq_ok_iff.2 ⟨accept_path h.names h.length, h.walkPath .whenSlashed⟩

theorem isDirectory (h : fs.Clear place) : fs.isDirectory place.path = true := by
  obtain ⟨searchable, hdir⟩ := h.directory
  exact isDirectory_iff.2 ⟨place, searchable, h.locate, hdir⟩

theorem entryStatus (h : fs.Clear place) :
    ∃ status, fs.entryStatus place.path = .ok status ∧ status.kind = .directory := by
  obtain ⟨folder, es, hnode⟩ := (fs.node?_eq_dir_iff place).2 h.directory
  refine ⟨fs.statusOf (.dir folder es), ?_, rfl⟩
  rw [FileSystem.entryStatus, h.locateEntry, ok_bind, statusAt, hnode]

theorem canonical (h : fs.Clear place) : fs.canonical place.path = .ok place := by
  obtain ⟨hnul, hne, -⟩ := accept_eq_ok_iff.1 (accept_path h.names h.length)
  rw [canonical_eq, if_neg (by simpa using hnul), if_neg (by simpa using hne),
    outset_of_isAbsolute (Place.isAbsolute_path place),
    Place.components_path fun n hn => (h.names n hn).toIsPiece]
  obtain rfl | ⟨above, n, rfl⟩ := List.eq_nil_or_concat place
  · rfl
  · have hslash : (Place.path (above ++ [n])).endsInSlash = false :=
      Place.endsInSlash_path_concat above (h.names n (by simp)).toIsPiece
    rw [List.concat_eq_append] at h ⊢
    rw [hslash]
    exact h.straight.canonicalFrom h.length _

end Clear

theorem stands_of_canonical (hbase : path.isAbsolute = true ∨ fs.folder? fs.base ≠ none)
    (hcanonical : fs.canonical path = .ok place) : place = [] ∨ fs.Stands place := by
  refine (arrives_of_canonical hcanonical).keeps (fun d => d = [] ∨ fs.Stands d) (.inl rfl)
    ?_ ?_ ?_
  · intro d hd
    obtain rfl | ⟨above, n, rfl⟩ := List.eq_nil_or_concat d
    · exact .inl rfl
    · rw [List.concat_eq_append] at hd ⊢
      have hstands : fs.Stands (above ++ [n]) := hd.resolve_left (by simp)
      obtain ⟨searchable, hdir⟩ := hstands.directory_of_append
      rw [Place.parent, List.dropLast_concat]
      exact .inr (.of_directory hdir)
  · intro d m _ _ _ hstands _
    exact .inr hstands
  · -- A path that is not absolute is resolved from a directory that is there.
    unfold outset
    split_ifs with habsolute
    · exact .inl rfl
    · have hfolder := hbase.resolve_left habsolute
      unfold folder? at hfolder
      split at hfolder
      · next folder es hnode =>
        obtain ⟨searchable, hdir⟩ := (fs.node?_eq_dir_iff fs.base).1 ⟨folder, es, hnode⟩
        exact .inr (.of_directory hdir)
      · exact absurd rfl hfolder

/-- An absolute path goes straight down to where all its links lead. -/
theorem straight_of_canonical (habsolute : path.isAbsolute = true)
    (hcanonical : fs.canonical path = .ok place) :
    fs.Straight [] place ∧ place.path.bytes.length ≤ pathLimit := by
  have harrives := arrives_of_canonical hcanonical
  rw [outset_of_isAbsolute habsolute] at harrives
  have hroot : fs.Straight [] [] ∧ (Place.path []).bytes.length ≤ pathLimit :=
    ⟨.nil [], by decide⟩
  refine harrives.keeps (fun d => fs.Straight [] d ∧ d.path.bytes.length ≤ pathLimit) hroot
    ?_ ?_ hroot
  · rintro d ⟨hd, hshort⟩
    obtain ⟨rest, hrest⟩ := List.dropLast_prefix d
    have hall : fs.Straight [] (d.parent ++ rest) := hrest.symm ▸ hd
    exact ⟨hall.of_append, Nat.le_trans (Place.length_path_mono ⟨rest, hrest⟩) hshort⟩
  · rintro d m ⟨hd, -⟩ hpass hname hstands hshort
    exact ⟨hd.concat hpass hname hstands, hshort⟩

theorem isProper_of_stands (hfs : fs.WellFormed) (hstands : place = [] ∨ fs.Stands place) :
    ∀ n ∈ place, FileName.IsProper n := by
  obtain rfl | ⟨sight, hsight, -⟩ := hstands
  · exact List.forall_mem_nil _
  · obtain ⟨node, hnode, -⟩ := Option.map_eq_some_iff.1 hsight
    exact hfs.isProper_of_node? hnode

theorem clear_of_isDirectory (hfs : fs.WellFormed) (habsolute : path.isAbsolute = true)
    (hcanonical : fs.canonical path = .ok place) (hdirectory : fs.isDirectory path = true) :
    fs.locate path = .ok place ∧ fs.Clear place := by
  obtain ⟨q, searchable, hlocate, hdir⟩ := isDirectory_iff.1 hdirectory
  obtain ⟨-, b, hwalk, hsettle⟩ := locate_eq_ok_iff.1 hlocate
  obtain rfl : q = place := (arrives_of_canonical hcanonical).eq_of_leads
    (walkPath_eq_ok_iff.1 hwalk) hsettle
  obtain ⟨hstraight, hlength⟩ := straight_of_canonical habsolute hcanonical
  exact ⟨hlocate, isProper_of_stands hfs hstraight.stands, hstraight, ⟨searchable, hdir⟩, hlength⟩

theorem clear_of_isDirectory_path (hfs : fs.WellFormed)
    (hbase : path.isAbsolute = true ∨ fs.folder? fs.base ≠ none)
    (hcanonical : fs.canonical path = .ok place)
    (hdirectory : fs.isDirectory place.path = true) : fs.Clear place := by
  -- The way along `path` may have started below the root and says nothing of the directories above;
  -- the walk of the place's own path does.
  obtain ⟨q, searchable, hlocate, hdir⟩ := isDirectory_iff.1 hdirectory
  obtain ⟨haccept, b, hwalk, hsettle⟩ := locate_eq_ok_iff.1 hlocate
  have hstands := stands_of_canonical hbase hcanonical
  have hnames := isProper_of_stands hfs hstands
  rw [walkPath_eq_ok_iff, outset_of_isAbsolute (Place.isAbsolute_path place),
    Place.components_path fun n hn => (hnames n hn).toIsPiece] at hwalk
  obtain ⟨rfl, hstraight⟩ := Straight.of_leads hwalk hsettle hstands
  exact ⟨hnames, hstraight, ⟨searchable, hdir⟩, (accept_eq_ok_iff.1 haccept).2.2⟩

end FileSystem
end FileShell
