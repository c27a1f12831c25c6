import FileShell.FileSystem.Copying
import FileShell.Proofs.Items
import FileShell.Proofs.Lookups

namespace FileShell.FileSystem

variable {fs after : FileSystem} {path : Path} {mode : Mode} {id : LeafId}

theorem checkName_eq_ok_iff {n : FileName} : checkName n = .ok () ↔ n.length ≤ nameLimit := by
  unfold checkName
  split_ifs with hlong
  · exact ⟨fun h => (nomatch h), fun h => absurd hlong (Nat.not_lt.2 h)⟩
  · exact ⟨fun _ => Nat.le_of_not_lt hlong, fun _ => rfl⟩

theorem mayChange_eq_ok_iff {fs : FileSystem} {dir : Place} :
    fs.mayChange dir = .ok () ↔ ∃ folder es, fs.node? dir = some (.dir folder es) ∧
      folder.mode.writable = true ∧ folder.mode.searchable = true := by
  unfold mayChange folder?
  cases fs.node? dir with
  | none => simp
  | some node =>
    cases node with
    | leaf id => simp
    | dir folder es =>
      dsimp only
      split_ifs with hmode
      · simpa using hmode
      · simpa using hmode

theorem dir_of_brink (hb : fs.brink path = .ok b) (hlast : b.last ≠ none) :
    ∃ folder es, fs.node? b.dir = some (.dir folder es) := by
  obtain ⟨-, hwalk⟩ := brink_eq_ok_iff.1 hb
  exact (fs.node?_eq_dir_iff _).2 ⟨true, (walkPath_eq_ok_iff.1 hwalk).pass hlast⟩

theorem mayChange_of_brink (hb : fs.brink path = .ok b) (hlast : b.last ≠ none) :
    fs.mayChange b.dir = .ok () ∨ fs.mayChange b.dir = fail .denied := by
  obtain ⟨folder, es, hdir⟩ := dir_of_brink hb hlast
  unfold mayChange folder?
  rw [hdir]
  dsimp only
  split_ifs
  · exact .inl rfl
  · exact .inr rfl

theorem makeDirectory_eq_ok (h : fs.makeDirectory path = .ok after) :
    ∃ b n, fs.brink path = .ok b ∧ b.last = some (.name n) ∧ n.length ≤ nameLimit ∧
      fs.node? (b.dir ++ [n]) = none ∧ fs.mayChange b.dir = .ok () ∧
      after = fs.putEntry b.dir n (.dir (fs.newFolder b.dir) []) := by
  obtain ⟨b, hb, h⟩ := bind_eq_ok_iff.1 h
  split at h
  · next n hlast =>
    obtain ⟨⟨⟩, hname, h⟩ := bind_eq_ok_iff.1 h
    split at h
    · simp at h
    · next hnode =>
      obtain ⟨⟨⟩, hmay, h⟩ := bind_eq_ok_iff.1 h
      exact ⟨b, n, hb, hlast, checkName_eq_ok_iff.1 hname, by simpa using hnode, hmay,
        (Except.ok.inj h).symm⟩
  · simp at h

theorem removeDirectory_eq_ok (h : fs.removeDirectory path = .ok after) :
    ∃ b n folder, fs.brink path = .ok b ∧ b.last = some (.name n) ∧ n.length ≤ nameLimit ∧
      fs.node? (b.dir ++ [n]) = some (.dir folder []) ∧ fs.mayChange b.dir = .ok () ∧
      after = fs.dropEntry b.dir n := by
  obtain ⟨b, hb, h⟩ := bind_eq_ok_iff.1 h
  split at h
  · simp at h
  · simp at h
  · simp at h
  · next n hlast =>
    obtain ⟨⟨⟩, hname, h⟩ := bind_eq_ok_iff.1 h
    split at h
    · simp at h
    · next node hnode =>
      obtain ⟨⟨⟩, hmay, h⟩ := bind_eq_ok_iff.1 h
      split at h
      · simp at h
      · next _ folder _ =>
        exact ⟨b, n, folder, hb, hlast, checkName_eq_ok_iff.1 hname, hnode, hmay,
          (Except.ok.inj h).symm⟩
      · simp at h

theorem removeFile_eq_ok (h : fs.removeFile path = .ok after) :
    ∃ b n id, fs.brink path = .ok b ∧ b.last = some (.name n) ∧ n.length ≤ nameLimit ∧
      fs.node? (b.dir ++ [n]) = some (.leaf id) ∧ b.slash = false ∧
      fs.mayChange b.dir = .ok () ∧ after = fs.dropEntry b.dir n := by
  obtain ⟨b, hb, h⟩ := bind_eq_ok_iff.1 h
  split at h
  · next n hlast =>
    obtain ⟨⟨⟩, hname, h⟩ := bind_eq_ok_iff.1 h
    split at h
    · simp at h
    · next node hnode =>
      cases node with
      | leaf id =>
        simp only [Node.isDir, Bool.false_eq_true, if_false] at h
        split at h
        · simp at h
        next hslash =>
        obtain ⟨⟨⟩, hmay, h⟩ := bind_eq_ok_iff.1 h
        exact ⟨b, n, id, hb, hlast, checkName_eq_ok_iff.1 hname, hnode, by simpa using hslash,
          hmay, (Except.ok.inj h).symm⟩
      | dir folder es =>
        simp only [Node.isDir, if_true, fail_bind] at h
        split at h
        · simp at h
        · obtain ⟨⟨⟩, -, h⟩ := bind_eq_ok_iff.1 h
          simp at h
  · simp at h

/-- A rename finds both names to be one node and does nothing, or takes away one entry and puts it
where nothing is, or a node of its kind with nothing in it. -/
theorem rename_eq_ok {new : Path} (h : fs.rename path new = .ok after) :
    ∃ b c n m node, fs.brink path = .ok b ∧ fs.brink new = .ok c ∧ b.last = some (.name n) ∧
      c.last = some (.name m) ∧ n.length ≤ nameLimit ∧ m.length ≤ nameLimit ∧
      fs.node? (b.dir ++ [n]) = some node ∧
      ((∃ present, fs.node? (c.dir ++ [m]) = some present ∧
          sameNode (b.dir ++ [n]) (c.dir ++ [m]) node present = true ∧ after = fs) ∨
        (∀ present, fs.node? (c.dir ++ [m]) = some present →
            kindsAgree node present = .ok () ∧ present.entries = []) ∧
          fs.mayChange b.dir = .ok () ∧ fs.mayChange c.dir = .ok () ∧
          mayLeave node b.dir c.dir = .ok () ∧
          after = (fs.dropEntry b.dir n).putEntry c.dir m node) := by
  obtain ⟨b, hb, h⟩ := bind_eq_ok_iff.1 h
  obtain ⟨c, hc, h⟩ := bind_eq_ok_iff.1 h
  split at h
  · next n m hn hm =>
    dsimp only at h
    obtain ⟨⟨⟩, hname, h⟩ := bind_eq_ok_iff.1 h
    split at h
    · simp at h
    next node hnode =>
    obtain ⟨⟨⟩, hname', h⟩ := bind_eq_ok_iff.1 h
    refine ⟨b, c, n, m, node, hb, hc, hn, hm, checkName_eq_ok_iff.1 hname,
      checkName_eq_ok_iff.1 hname', hnode, ?_⟩
    split at h
    · simp at h
    split at h
    · simp at h
    split at h
    · next hnone =>
      obtain ⟨⟨⟩, hmay, h⟩ := bind_eq_ok_iff.1 h
      obtain ⟨⟨⟩, hmay', h⟩ := bind_eq_ok_iff.1 h
      obtain ⟨⟨⟩, hleave, h⟩ := bind_eq_ok_iff.1 h
      exact .inr ⟨by simp [hnone], hmay, hmay', hleave, (Except.ok.inj h).symm⟩
    next present hpresent =>
    split at h
    · simp at h
    split at h
    · next hsame => exact .inl ⟨present, hpresent, hsame, (Except.ok.inj h).symm⟩
    obtain ⟨⟨⟩, hmay, h⟩ := bind_eq_ok_iff.1 h
    obtain ⟨⟨⟩, hmay', h⟩ := bind_eq_ok_iff.1 h
    obtain ⟨⟨⟩, hkinds, h⟩ := bind_eq_ok_iff.1 h
    obtain ⟨⟨⟩, hleave, h⟩ := bind_eq_ok_iff.1 h
    split at h
    · simp at h
    next hempty =>
    refine .inr ⟨fun other hother => ?_, hmay, hmay', hleave, (Except.ok.inj h).symm⟩
    obtain rfl := Option.some.inj (hpresent.symm.trans hother)
    exact ⟨hkinds, by simpa using hempty⟩
  · simp at h

/-- A rename that succeeds has found no slash behind a name that stands for no directory, and neither
name in a directory that the other one stands for; and where both names are one node it has changed
nothing. -/
theorem rename_guards {new : Path} {c : Brink} {n m : FileName} {node : Node}
    (h : fs.rename path new = .ok after) (hb : fs.brink path = .ok b) (hc : fs.brink new = .ok c)
    (hn : b.last = some (.name n)) (hm : c.last = some (.name m))
    (hnode : fs.node? (b.dir ++ [n]) = some node) :
    (node.isDir = false → b.slash = false ∧ c.slash = false) ∧
      (node.isDir = true → ¬ b.dir ++ [n] <+: c.dir) ∧
      ∀ present, fs.node? (c.dir ++ [m]) = some present →
        (present.isDir = true → ¬ c.dir ++ [m] <+: b.dir) ∧
        (sameNode (b.dir ++ [n]) (c.dir ++ [m]) node present = true → after = fs) := by
  simp only [rename, hb, hc, ok_bind, hn, hm] at h
  obtain ⟨⟨⟩, -, h⟩ := bind_eq_ok_iff.1 h
  rw [hnode] at h
  dsimp only at h
  obtain ⟨⟨⟩, -, h⟩ := bind_eq_ok_iff.1 h
  split at h
  · simp at h
  next hslash =>
  split at h
  · simp at h
  next hinside =>
  refine ⟨fun hleaf => by simpa [hleaf] using hslash, fun hdir hprefix => ?_, fun present hpresent => ?_⟩
  · exact hinside (by simpa [hdir] using hprefix)
  · rw [hpresent] at h
    dsimp only at h
    split at h
    · simp at h
    next hholds =>
    refine ⟨fun hdir hprefix => hholds (by simpa [hdir] using hprefix), fun hsame => ?_⟩
    rw [if_pos hsame] at h
    exact (Except.ok.inj h).symm

theorem openForReading_eq_ok (h : fs.openForReading path = .ok id) :
    ∃ place content, fs.locate path = .ok place ∧ fs.node? place = some (.leaf id) ∧
      (fs.leaves id).body = .file content ∧ (fs.leaves id).mode.readable = true := by
  obtain ⟨place, hplace, h⟩ := bind_eq_ok_iff.1 h
  split at h
  · split at h <;> cases h
  · next i hnode =>
    dsimp only at h
    split at h
    · next hreadable =>
      split at h
      · next content hbody =>
        obtain rfl := Except.ok.inj h
        exact ⟨place, content, hplace, hnode, hbody, hreadable⟩
      · cases h
    · cases h
  · cases h

theorem openForWriting_eq_ok (h : fs.openForWriting path mode = .ok (id, after)) :
    accept path = .ok () ∧ ∃ b n, fs.walkPath .always path = .ok b ∧ b.last = some (.name n) ∧
      b.slash = false ∧ n.length ≤ nameLimit ∧
      ((fs.node? (b.dir ++ [n]) = none ∧ id = fs.root.fresh ∧
          (∃ folder es, fs.node? b.dir = some (.dir folder es)) ∧
          after = fs.putLeaf b.dir n ⟨.file [], mode, fs.clock⟩) ∨
        fs.node? (b.dir ++ [n]) = some (.leaf id) ∧
          ((∃ old, (fs.leaves id).body = .file old ∧
              after = fs.setLeaf id ⟨.file [], (fs.leaves id).mode, fs.clock⟩) ∨
            (fs.leaves id).body = .pipe ∧ after = fs)) := by
  obtain ⟨⟨⟩, haccept, h⟩ := bind_eq_ok_iff.1 h
  obtain ⟨b, hwalk, h⟩ := bind_eq_ok_iff.1 h
  split at h
  · next n hlast =>
    dsimp only at h
    split_ifs at h with hslash
    · simp at h
    have hslash := Bool.eq_false_iff.2 hslash
    have halways := walkPath_always hwalk hslash
    obtain ⟨⟨⟩, hname, h⟩ := bind_eq_ok_iff.1 h
    refine ⟨haccept, b, n, halways, hlast, hslash, checkName_eq_ok_iff.1 hname, ?_⟩
    split at h
    · next hnone =>
      obtain ⟨⟨⟩, hmay, h⟩ := bind_eq_ok_iff.1 h
      obtain ⟨folder, es, hdir, _⟩ := mayChange_eq_ok_iff.1 hmay
      obtain ⟨rfl, rfl⟩ := Prod.mk.inj (Except.ok.inj h)
      exact .inl ⟨hnone, rfl, ⟨folder, es, hdir⟩, rfl⟩
    · simp at h
    · next i hnode =>
      split_ifs at h with hmode
      · simp at h
      refine .inr ?_
      split at h
      · next old hbody =>
        obtain ⟨rfl, rfl⟩ := Prod.mk.inj (Except.ok.inj h)
        exact ⟨hnode, .inl ⟨old, hbody, rfl⟩⟩
      · next hbody =>
        obtain ⟨rfl, rfl⟩ := Prod.mk.inj (Except.ok.inj h)
        refine ⟨hnode, .inr ⟨?_, rfl⟩⟩
        cases hb : (fs.leaves i).body with
        | file old => exact absurd hb (hbody old)
        -- A link here would have been followed, since no slash stands behind it.
        | link dest =>
          have hlink : fs.sight? (b.dir ++ [n]) = some (.link dest) := by
            simp [sight?, hnode, sightOf, hb]
          have hstop := (walkPath_eq_ok_iff.1 halways).follows_eq_false hlast hlink
          simp [Following.follows] at hstop
        | pipe => rfl
  · simp at h

end FileShell.FileSystem
