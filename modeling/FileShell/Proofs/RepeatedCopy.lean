import FileShell.Proofs.CopyContents

namespace FileShell

namespace FileSystem

variable {fs first : FileSystem} {source target path : Path} {b : Brink} {n : FileName} {place : Place}
  {reader id : LeafId} {content : Bytes} {mode : Mode}

theorem Leads.slash_eq_false {following : Following} {links : Nat} {dir : Place} {slash : Bool}
    {cs : List Component} (h : Leads fs following links dir slash cs b) (hb : b.slash = false) :
    slash = false := by
  induction h with
  | start links dir slash => exact hb
  | stop links hpass hlast => exact hb
  | follow links hpass hlink hfollow h ih => exact (Bool.or_eq_false_iff.1 (ih hb)).1
  | here links hpass h ih => exact ih hb
  | up links hpass h ih => exact ih hb
  | enter links hpass hname hdir h ih => exact ih hb
  | cross links hpass hname hlink h ih => exact ih hb

theorem Leads.unlessSlashed {links : Nat} {dir : Place} {slash : Bool} {cs : List Component}
    (h : Leads fs .always links dir slash cs b) (hb : b.slash = false) :
    Leads fs .unlessSlashed links dir slash cs b := by
  induction h with
  | start links dir slash => exact .start links dir slash
  | stop links hpass hlast =>
    exact .stop links hpass fun n target hn hlink => by cases hlast n target hn hlink
  | @follow links dir slash n target b hpass hlink hfollow h ih =>
    have hslash : slash = false := (Bool.or_eq_false_iff.1 (h.slash_eq_false hb)).1
    exact .follow links hpass hlink (by rw [hslash]; rfl) (ih hb)
  | here links hpass h ih => exact .here links hpass (ih hb)
  | up links hpass h ih => exact .up links hpass (ih hb)
  | enter links hpass hname hdir h ih => exact .enter links hpass hname hdir (ih hb)
  | cross links hpass hname hlink h ih => exact .cross links hpass hname hlink (ih hb)

theorem openForReading_of_leaf (hplace : fs.locate path = .ok place)
    (hitem : fs.item? place = some (.leaf id (.file content) mode)) (hreadable : mode.readable = true) :
    fs.openForReading path = .ok id := by
  obtain ⟨hnode, hbody, rfl⟩ := item?_eq_leaf_iff.1 hitem
  rw [openForReading, hplace, ok_bind]
  simp only [hnode, hreadable, hbody, if_true]
  rfl

theorem openForWriting_of_leaf (haccept : accept path = .ok ())
    (hwalk : fs.walkPath .unlessSlashed path = .ok b) (hlast : b.last = some (.name n))
    (hslash : b.slash = false) (hname : n.length ≤ nameLimit)
    (hitem : fs.item? (b.dir ++ [n]) = some (.leaf id (.file content) mode)) (new : Mode) :
    fs.openForWriting path new =
      if mode.writable then .ok (id, fs.setLeaf id ⟨.file [], mode, fs.clock⟩) else fail .denied := by
  obtain ⟨hnode, hbody, rfl⟩ := item?_eq_leaf_iff.1 hitem
  rw [openForWriting, haccept, ok_bind, hwalk, ok_bind]
  simp only [hlast, hslash, Bool.false_eq_true, if_false, checkName_eq_ok_iff.2 hname, ok_bind, hnode,
    hbody]
  cases (fs.leaves id).mode.writable <;> rfl

theorem writable_written (mode : Mode) (content : Bytes) (now : Instant) :
    (written mode content now).mode.writable = mode.writable := by
  unfold written afterWrite
  dsimp only
  split_ifs <;> simp [Mode.writable, Mode.setUser, Mode.setGroup]

theorem setLeaf_leaves (fs : FileSystem) (id : LeafId) : fs.setLeaf id (fs.leaves id) = fs := by
  obtain ⟨root, leaves, clock, base⟩ := fs
  simp only [setLeaf, FileSystem.mk.injEq, true_and, and_true]
  funext i
  split_ifs with hi
  · rw [hi]
  · rfl

theorem walkPath_unlessSlashed (h : fs.walkPath .always path = .ok b) (hslash : b.slash = false) :
    fs.walkPath .unlessSlashed path = .ok b :=
  walkPath_eq_ok_iff.2 ((walkPath_eq_ok_iff.1 h).unlessSlashed hslash)

/-- A file system as a copy to a file leaves it: the file `id` under the destination holds what is
copied to it out of the source, and may be opened again if its permission bits let it be written. -/
structure HoldsCopy (fs : FileSystem) (source target : Path) (reader id : LeafId) (mode : Mode) :
    Prop where
  reads : fs.openForReading source = .ok reader
  keeps : (fs.leaves reader).mode = mode
  holds : fs.leaves id = written mode (if id = reader then [] else fs.contentOf reader) fs.clock
  opens : ∀ new, fs.openForWriting target new =
    if mode.writable then .ok (id, fs.setLeaf id ⟨.file [], (fs.leaves id).mode, fs.clock⟩)
    else fail .denied

theorem HoldsCopy.copy_eq (h : fs.HoldsCopy source target reader id mode) :
    fs.copy source target = ⟨fs, if mode.writable then none else some (.os .denied)⟩ := by
  rw [copy, h.reads]
  dsimp only
  rw [h.keeps, h.opens]
  split_ifs with hwritable
  · dsimp only
    rw [contentOf_emptied, fill_setRegularMode, ← h.holds, setLeaf_leaves]
  · rfl

section Opened

variable (hwithin : Within fs first) (haccept : accept target = .ok ())
  (hwalk : fs.walkPath .always target = .ok b) (hlast : b.last = some (.name n))
  (hslash : b.slash = false) (hname : n.length ≤ nameLimit)
  (hnode : first.node? (b.dir ++ [n]) = some (.leaf id))
include hwithin haccept hwalk hlast hslash hname hnode

theorem openForWriting_written (hleaf : first.leaves id = written mode content first.clock)
    (new : Mode) : first.openForWriting target new =
      if mode.writable then .ok (id, first.setLeaf id ⟨.file [], (first.leaves id).mode, first.clock⟩)
      else fail .denied := by
  have hitem : first.item? (b.dir ++ [n]) = some (.leaf id (.file content) (first.leaves id).mode) :=
    item?_eq_leaf_iff.2 ⟨hnode, by rw [hleaf]; rfl, rfl⟩
  have hwalk' : first.walkPath .unlessSlashed target = .ok b := by
    refine walkPath_mono hwithin (walkPath_unlessSlashed hwalk hslash) fun m dest hm hlink => ?_
    obtain rfl : n = m := by simpa [hlast] using hm
    rw [sight?_eq, hitem] at hlink
    cases hlink
  rw [openForWriting_of_leaf haccept hwalk' hlast hslash hname hitem, hleaf, writable_written]

theorem holdsCopy_of_within (hplace : fs.locate source = .ok place) (hreadable : mode.readable = true)
    (hitem : first.item? place = some (.leaf reader (.file content) mode))
    (hleaf : first.leaves id = written mode content first.clock)
    (hself : id = reader → content = []) : first.HoldsCopy source target reader id mode where
  reads := openForReading_of_leaf (locate_mono hwithin hplace) hitem hreadable
  keeps := (item?_eq_leaf_iff.1 hitem).2.2
  holds := by
    have hcontent : first.contentOf reader = content := by
      rw [contentOf, (item?_eq_leaf_iff.1 hitem).2.1]
    rw [hleaf, hcontent]
    split_ifs with hid
    · rw [hself hid]
    · rfl
  opens := openForWriting_written hwithin haccept hwalk hlast hslash hname hnode hleaf

end Opened

/-- A copy has left a pipe and all else as it was, or it has left what another copy finds. -/
theorem holdsCopy_of_copy (h : fs.copy source target = ⟨first, none⟩) :
    ∃ reader content mode, fs.itemAt? source = some (.leaf reader (.file content) mode) ∧
      (fs.LeadsToPipe target ∧ first = fs ∧ fs.openForReading source = .ok reader ∨
        ¬ fs.LeadsToPipe target ∧ ∃ id, first.HoldsCopy source target reader id mode) := by
  have hwithin : Within fs first := by
    obtain ⟨_, _, _, -, hcopied⟩ := copied_of_copy h
    exact hcopied.within
  obtain ⟨reader, hreader, haccept, b, n, hwalk, hlast, hslash, hname, hcases⟩ := copy_eq_ok h
  obtain ⟨place, content, hplace, hnode, hbody, hreadable⟩ := openForReading_eq_ok hreader
  have hsource : fs.item? place = some (.leaf reader (.file content) (fs.leaves reader).mode) :=
    item?_eq_leaf_iff.2 ⟨hnode, hbody, rfl⟩
  have hcontent : fs.contentOf reader = content := by rw [contentOf, hbody]
  refine ⟨reader, content, (fs.leaves reader).mode, itemAt?_eq_some_iff.2 ⟨place, hplace, hsource⟩, ?_⟩
  rw [hcontent] at hcases
  obtain ⟨hnone, ⟨folder, es, hdir⟩, rfl⟩ | ⟨id, htarget, hcases⟩ := hcases
  · refine .inr ⟨?_, fs.root.fresh, ?_⟩
    · rintro ⟨_, _, hpipe⟩
      rw [Copied.itemAt?_eq_none hwalk hlast hnone] at hpipe
      cases hpipe
    · have hne : fs.root.fresh ≠ reader :=
        Nat.ne_of_gt (Node.lt_fresh_of_at? fs.root place reader hnode)
      have hthere := item?_putLeaf_self hdir n (written (fs.leaves reader).mode content fs.clock)
      exact holdsCopy_of_within hwithin haccept hwalk hlast hslash hname
        (item?_eq_leaf_iff.1 hthere).1 hplace hreadable (item?_putLeaf_of_item? hdir hnone hsource _)
        (leaves_setLeaf_self _ _ _) fun hid => absurd hid hne
  have hitem : fs.itemAt? target = some (.leaf id (fs.leaves id).body (fs.leaves id).mode) :=
    itemAt?_of_walk haccept hwalk hlast hslash hname htarget
  obtain ⟨old, hold, rfl⟩ | ⟨hpipe, rfl⟩ := hcases
  · refine .inr ⟨?_, id, ?_⟩
    · rintro ⟨_, _, hpipe⟩
      rw [hitem, hold] at hpipe
      cases hpipe
    · have hkept : (fs.setLeaf id (written (fs.leaves reader).mode
          (if id = reader then [] else content) fs.clock)).item? place = some (.leaf reader
            (.file (if id = reader then [] else content)) (fs.leaves reader).mode) := by
        rw [item?_setLeaf, hsource, Option.map_some]
        by_cases hid : id = reader
        · simp [Item.withLeaf, written, hid]
        · simp [Item.withLeaf, hid, Ne.symm hid]
      exact holdsCopy_of_within hwithin haccept hwalk hlast hslash hname htarget hplace hreadable hkept
        (leaves_setLeaf_self _ _ _) fun hid => if_pos hid
  · exact .inl ⟨⟨id, _, hpipe ▸ hitem⟩, rfl, hreader⟩

/-- A copy made again changes nothing. It is done if the destination is a pipe or the source may be
written to, and only then. -/
theorem copy_again (h : fs.copy source target = ⟨first, none⟩) :
    ∃ reader content mode, fs.itemAt? source = some (.leaf reader (.file content) mode) ∧
      first.openForReading source = .ok reader ∧
      (fs.LeadsToPipe target ∨ mode.writable = true →
        first.copy source target = ⟨first, none⟩) ∧
      (¬ (fs.LeadsToPipe target ∨ mode.writable = true) →
        first.copy source target = ⟨first, some (.os .denied)⟩) := by
  obtain ⟨reader, content, mode, hsource, hcases⟩ := holdsCopy_of_copy h
  refine ⟨reader, content, mode, hsource, ?_⟩
  obtain ⟨hpipe, rfl, hreader⟩ | ⟨hpipe, id, hholds⟩ := hcases
  · exact ⟨hreader, fun _ => h, fun hnot => absurd (.inl hpipe) hnot⟩
  · refine ⟨hholds.reads, fun hwritable => ?_, fun hnot => ?_⟩
    · rw [hholds.copy_eq, if_pos (hwritable.resolve_left hpipe)]
    · rw [hholds.copy_eq, if_neg fun hwritable => hnot (.inr hwritable)]

theorem status_of_openForReading (h : fs.openForReading path = .ok reader) :
    fs.reaches path = true ∧ fs.isRegular path = true := by
  obtain ⟨place, content, hplace, hnode, hbody, -⟩ := openForReading_eq_ok h
  have hstatus : fs.status path = .ok ⟨.file content.length, (fs.leaves reader).modified⟩ := by
    rw [status, hplace, ok_bind, statusAt, hnode]
    simp only [statusOf, Leaf.kind, hbody]
  rw [reaches, isRegular, hstatus]
  exact ⟨rfl, rfl⟩

end FileSystem

namespace Command

theorem runCp_of_openForReading {w : World} {src : Text} {reader : LeafId}
    (h : w.files.openForReading (w.session.resolve src) = .ok reader) (dst : Text) (rest : List Text) :
    runCp w (src :: dst :: rest) = w.leave (w.session.resolve dst)
      (w.files.copy (w.session.resolve src) (w.session.resolve dst)) := by
  obtain ⟨hreaches, hregular⟩ := FileSystem.status_of_openForReading h
  simp only [runCp, culprit, hreaches, hregular, h]
  rfl

/-- After a `cp` that is done the same `cp` leaves all as it is. It is done again if the destination is
a pipe or the source may be written to; otherwise it is refused, since the copy may not be either. -/
theorem cp_again (s : Surroundings) (w : World) (src dst : Text) (rest : List Text) (flow : Flow)
    (hdone : (execute s w cp.name.toList (src :: dst :: rest)).verdict = .done flow) :
    let target := w.session.resolve dst
    let first := (execute s w cp.name.toList (src :: dst :: rest)).world
    let second := execute s first cp.name.toList (src :: dst :: rest)
    ∃ id content mode,
      w.files.itemAt? (w.session.resolve src) = some (.leaf id (.file content) mode) ∧
      (w.files.LeadsToPipe target ∨ mode.writable = true →
        second.verdict = .done .stay ∧ ∀ q, second.world.files.item? q = first.files.item? q) ∧
      (¬ (w.files.LeadsToPipe target ∨ mode.writable = true) →
        second.verdict = .failed (.files target (.os .denied)) ∧ second.world = first) := by
  obtain ⟨files, hcopy⟩ : ∃ files,
      w.files.copy (w.session.resolve src) (w.session.resolve dst) = ⟨files, none⟩ :=
    ⟨_, copy_of_runCp hdone⟩
  obtain ⟨reader, hreader, -⟩ := FileSystem.copy_eq_ok hcopy
  have hfirst : (execute s w cp.name.toList (src :: dst :: rest)).world = { w with files } := by
    rw [(execute_name s w (src :: dst :: rest) .cp).1, Command.run, runCp_of_openForReading hreader,
      hcopy]
    rfl
  obtain ⟨id, content, mode, hsource, hreads, hagain, hdenied⟩ := FileSystem.copy_again hcopy
  -- The source can still be read, so that the second run comes to the copy.
  have hsecond := runCp_of_openForReading (w := { w with files }) hreads dst rest
  obtain ⟨hworld, hverdict⟩ := execute_name s { w with files } (src :: dst :: rest) .cp
  rw [Command.run, hsecond] at hworld hverdict
  refine ⟨id, content, mode, hsource, fun hmay => ?_, fun hnot => ?_⟩
  · have hsame : files.copy (w.session.resolve src) (w.session.resolve dst) = ⟨files, none⟩ :=
      hagain hmay
    rw [hfirst, hworld, hverdict]
    dsimp only
    rw [hsame]
    exact ⟨rfl, fun _ => rfl⟩
  · have hfails : files.copy (w.session.resolve src) (w.session.resolve dst) =
        ⟨files, some (.os .denied)⟩ :=
      hdenied hnot
    rw [hfirst, hworld, hverdict]
    dsimp only
    rw [hfails]
    exact ⟨rfl, rfl⟩

/-- A file is copied to a new name and then over the copy. -/
theorem cp_again_of_new_name :
    let args : List Text := [['a'], ['b']]
    let first := execute ⟨none, .universal⟩ besideFile cp.name.toList args
    let second := execute ⟨none, .universal⟩ first.world cp.name.toList args
    first.verdict = .done .stay ∧ second.verdict = .done .stay ∧
      second.world.files.item? [[0x62]] = some (.leaf 1 (.file [0x78]) 0o644#12) ∧
      ∀ q, second.world.files.item? q = first.world.files.item? q := by
  have hdone : (execute ⟨none, .universal⟩ besideFile cp.name.toList [['a'], ['b']]).verdict =
      .done .stay := by decide +kernel
  obtain ⟨id, content, mode, hsource, hagain, -⟩ :=
    cp_again ⟨none, .universal⟩ besideFile ['a'] ['b'] [] .stay hdone
  have hthere : besideFile.files.itemAt? (besideFile.session.resolve ['a']) =
      some (.leaf 0 (.file [0x78]) 0o644#12) := by decide +kernel
  have hcopied : (execute ⟨none, .universal⟩ besideFile cp.name.toList
      [['a'], ['b']]).world.files.item? [[0x62]] = some (.leaf 1 (.file [0x78]) 0o644#12) := by
    decide +kernel
  rw [hthere] at hsource
  obtain ⟨-, -, hmode⟩ := Item.leaf.inj (Option.some.inj hsource)
  have hwritable : mode.writable = true := hmode ▸ by decide
  obtain ⟨hverdict, hsame⟩ := hagain (.inr hwritable)
  exact ⟨hdone, hverdict, (hsame _).trans hcopied, hsame⟩

/-- A shell in a directory with nothing but a file `a` that may be read only. -/
def besideReadOnly : World :=
  ⟨(FileSystem.empty 0).putLeaf [] [0x61] ⟨.file [0x78], 0o444#12, 0⟩, ⟨[], .unknown⟩, []⟩

/-- The copy of a file that may be read only cannot be made again. -/
theorem cp_again_refused :
    let args : List Text := [['a'], ['b']]
    let first := execute ⟨none, .universal⟩ besideReadOnly cp.name.toList args
    let second := execute ⟨none, .universal⟩ first.world cp.name.toList args
    first.verdict = .done .stay ∧
      second.verdict = .failed (.files (Path.ofString "/b") (.os .denied)) := by
  decide +kernel

end Command
end FileShell
