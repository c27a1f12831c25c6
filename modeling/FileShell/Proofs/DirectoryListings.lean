import FileShell.Proofs.WellFormed
import FileShell.Search

namespace FileShell.FileSystem

variable {fs : FileSystem} {path : Path} {place : Place} {folder inner : Folder}
  {es es' : List (FileName × Node)} {n : FileName}

/-- A path leads to a directory that can be listed. -/
structure Opens (fs : FileSystem) (path : Path) (place : Place) (folder : Folder)
    (es : List (FileName × Node)) : Prop where
  leads : fs.locate path = .ok place
  holds : fs.node? place = some (.dir folder es)
  readable : folder.mode.readable = true

theorem list_eq_ok_iff : fs.list path = .ok es ↔ ∃ place folder, fs.Opens path place folder es := by
  constructor
  · intro h
    obtain ⟨place, hplace, h⟩ := bind_eq_ok_iff.1 h
    split at h
    · next folder entries hnode =>
      split_ifs at h with hreadable
      · obtain rfl := Except.ok.inj h
        exact ⟨place, folder, hplace, hnode, hreadable⟩
      · simp at h
    · simp at h
  · rintro ⟨place, folder, hplace, hnode, hreadable⟩
    rw [list, hplace, ok_bind, hnode]
    exact if_pos hreadable

theorem Opens.list_eq (h : fs.Opens path place folder es) : fs.list path = .ok es :=
  list_eq_ok_iff.2 ⟨place, folder, h⟩

theorem node?_concat_of_mem (hfs : fs.WellFormed) (hnode : fs.node? place = some (.dir folder es))
    {node : Node} (hmem : (n, node) ∈ es) : fs.node? (place ++ [n]) = some node := by
  have hdistinct : Node.DistinctIn es := Node.Distinct.at? hfs.distinct hnode
  have hlookup : (Node.dir folder es).child? n = some node := hdistinct.lookup_of_mem hmem
  rw [node?_append, hnode, Option.bind_some, Node.at?_cons, hlookup]
  rfl

/-- A walk that has come to a directory goes on from there with what else stands on its path, and it
has replaced every link on the way there, whatever is done with links at the end. -/
theorem Leads.extend (hfs : fs.WellFormed) {following : Following} {links : Nat} {dir : Place}
    {slash searchable : Bool} {cs : List Component} {b : Brink}
    (h : Leads fs following links dir slash cs b) (hplace : fs.settle b = .ok place)
    (hdir : fs.sight? place = some (.directory searchable)) (other : Following) (c : Component)
    (rest : List Component) (after : Bool) :
    ∃ fewer, fewer ≤ links ∧ fs.walk other links dir after (cs ++ c :: rest) =
      fs.walk other fewer place after (c :: rest) := by
  induction h with
  | start links dir slash =>
    obtain rfl : dir = place := Except.ok.inj hplace
    exact ⟨links, Nat.le_refl links, rfl⟩
  | @stop links dir slash last hpass _ =>
    refine ⟨links, Nat.le_refl links, ?_⟩
    cases last with
    | here =>
      obtain rfl : dir = place := Except.ok.inj hplace
      exact walk_here fs other links hpass
    | up =>
      obtain rfl : dir.parent = place := Except.ok.inj hplace
      exact walk_up fs other links hpass
    | name m =>
      obtain ⟨hname, rfl, -⟩ := (settle_name_eq_ok_iff rfl).1 hplace
      exact walk_enter fs other links hpass hname hdir
  | @follow links dir slash m target b hpass hlink _ _ ih =>
    -- At the end of a path a link is followed whatever its name is, but not before the end.
    obtain ⟨id, hleaf⟩ := node?_of_sight?_link hlink
    have hname := (hfs.isProper_of_node? hleaf m (by simp)).short
    obtain ⟨fewer, hle, hwalk⟩ := ih hplace
    exact ⟨fewer, Nat.le_succ_of_le hle, (walk_cross fs other links hpass hname hlink).trans hwalk⟩
  | here links hpass _ ih =>
    obtain ⟨fewer, hle, hwalk⟩ := ih hplace
    exact ⟨fewer, hle, (walk_here fs other links hpass).trans hwalk⟩
  | up links hpass _ ih =>
    obtain ⟨fewer, hle, hwalk⟩ := ih hplace
    exact ⟨fewer, hle, (walk_up fs other links hpass).trans hwalk⟩
  | enter links hpass hname hchild _ ih =>
    obtain ⟨fewer, hle, hwalk⟩ := ih hplace
    exact ⟨fewer, hle, (walk_enter fs other links hpass hname hchild).trans hwalk⟩
  | cross links hpass hname hlink _ ih =>
    obtain ⟨fewer, hle, hwalk⟩ := ih hplace
    refine ⟨fewer, Nat.le_succ_of_le hle, (walk_cross fs other links hpass hname hlink).trans ?_⟩
    simpa using hwalk

theorem walk_name_of_dir (following : Following) (links : Nat) (slash : Bool)
    (hnode : fs.node? place = some (.dir folder es))
    (hchild : fs.node? (place ++ [n]) = some (.dir inner es')) :
    fs.walk following links place slash [.name n] =
      if folder.mode.searchable then .ok ⟨place, some (.name n), slash⟩ else fail .denied := by
  have hpass : fs.pass place = if folder.mode.searchable then .ok () else fail .denied := by
    rw [pass, hnode]
  have hlink : fs.linkTarget? (place ++ [n]) = none := by simp [linkTarget?, leaf?, hchild]
  rw [walk_eq_walkFrom, walkFrom, hpass, hlink]
  cases folder.mode.searchable <;> rfl

theorem accept_join_name (haccept : accept path = .ok ()) (hn : n.IsProper) :
    accept (path.join ⟨n⟩) =
      if pathLimit < (path.join ⟨n⟩).bytes.length then fail .nameTooLong else .ok () := by
  obtain ⟨hnul, hne, -⟩ := accept_eq_ok_iff.1 haccept
  have hclean : (0 : UInt8) ∉ (path.join ⟨n⟩).bytes := by
    obtain ⟨hbytes, -⟩ | ⟨hbytes, -⟩ := Path.bytes_join (Path.isAbsolute_name hn.toIsPiece) path
    · simp [hbytes, hnul, hn.noNul]
    · simp [hbytes, hnul, hn.noNul, Path.slash]
  have hsome : (path.join ⟨n⟩).bytes ≠ [] := by
    obtain ⟨hbytes, -⟩ | ⟨hbytes, -⟩ := Path.bytes_join (Path.isAbsolute_name hn.toIsPiece) path
    · simp [hbytes, hne]
    · simp [hbytes]
  rw [accept, if_neg (by simpa using hclean), if_neg (by simpa using hsome)]

theorem locate_join_name (hfs : fs.WellFormed) (hplace : fs.locate path = .ok place)
    (hnode : fs.node? place = some (.dir folder es)) (hmem : (n, .dir inner es') ∈ es) :
    fs.locate (path.join ⟨n⟩) =
      if pathLimit < (path.join ⟨n⟩).bytes.length then fail .nameTooLong
      else if folder.mode.searchable then .ok (place ++ [n]) else fail .denied := by
  have hchild := node?_concat_of_mem hfs hnode hmem
  have hn : n.IsProper := hfs.isProper_of_node? hchild n (by simp)
  obtain ⟨haccept, b, hwalk, hsettle⟩ := locate_eq_ok_iff.1 hplace
  have hsight : fs.sight? place = some (.directory folder.mode.searchable) := by
    rw [sight?, hnode]
    rfl
  obtain ⟨fewer, -, hextend⟩ :=
    (walkPath_eq_ok_iff.1 hwalk).extend hfs hsettle hsight .always (.name n) [] false
  have hstart : fs.outset (path.join ⟨n⟩) = fs.outset path := by
    rw [outset, outset, Path.isAbsolute_join_relative (Path.isAbsolute_name hn.toIsPiece) path]
  have hjoined : fs.walkPath .always (path.join ⟨n⟩) =
      if folder.mode.searchable then .ok ⟨place, some (.name n), false⟩ else fail .denied := by
    rw [← walk_name_of_dir .always fewer false hnode hchild, ← hextend, ← hstart, walkPath,
      Path.components_join_name hn.toIsPiece, Path.endsInSlash_join_name hn.toIsPiece]
    rfl
  have hend : fs.settle ⟨place, some (.name n), false⟩ = .ok (place ++ [n]) :=
    (settle_name_eq_ok_iff rfl).2 ⟨hn.short, rfl, _, hchild, fun h => by cases h⟩
  rw [locate, accept_join_name haccept hn, hjoined]
  by_cases hlong : pathLimit < (path.join ⟨n⟩).bytes.length
  · rw [if_pos hlong, if_pos hlong]
    rfl
  · rw [if_neg hlong, if_neg hlong]
    cases folder.mode.searchable with
    | true => exact hend
    | false => rfl

theorem Opens.enter (hfs : fs.WellFormed) (h : fs.Opens path place folder es)
    (hmem : (n, .dir inner es') ∈ es)
    (hnone : Node.unreadable? folder.mode (path.join ⟨n⟩) inner = none) :
    fs.Opens (path.join ⟨n⟩) (place ++ [n]) inner es' := by
  unfold Node.unreadable? at hnone
  split_ifs at hnone with hlong hmodes
  obtain ⟨hsearchable, hreadable⟩ : folder.mode.searchable = true ∧ inner.mode.readable = true := by
    simpa using hmodes
  refine ⟨?_, node?_concat_of_mem hfs h.holds hmem, hreadable⟩
  rw [locate_join_name hfs h.leads h.holds hmem, if_neg hlong, if_pos hsearchable]

theorem Opens.list_eq_error (hfs : fs.WellFormed) (h : fs.Opens path place folder es)
    (hmem : (n, .dir inner es') ∈ es) {fault : Fault}
    (hfault : Node.unreadable? folder.mode (path.join ⟨n⟩) inner = some fault) :
    fs.list (path.join ⟨n⟩) = .error fault := by
  have hchild := node?_concat_of_mem hfs h.holds hmem
  rw [list, locate_join_name hfs h.leads h.holds hmem]
  unfold Node.unreadable? at hfault
  split_ifs at hfault with hlong hmodes
  · rw [if_pos hlong, ← Option.some.inj hfault]
    rfl
  · rw [if_neg hlong, ← Option.some.inj hfault]
    cases hsearchable : folder.mode.searchable with
    | false => rfl
    | true =>
      have hreadable : inner.mode.readable = false := by simpa [hsearchable] using hmodes
      rw [if_pos rfl, ok_bind, hchild]
      exact if_neg (by simp [hreadable])

end FileShell.FileSystem
