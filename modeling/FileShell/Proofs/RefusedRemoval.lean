import FileShell.Proofs.RemoveCommand
import FileShell.Proofs.WellFormed

namespace FileShell

namespace Mode

/-- The permission to list a directory, to change its entries and to look names up in it. -/
def isFull (m : Mode) : Bool := m.readable && m.writable && m.searchable

theorem isFull_iff {m : Mode} :
    m.isFull = true ↔ m.readable = true ∧ m.writable = true ∧ m.searchable = true := by
  simp [isFull, and_assoc]

end Mode

namespace Node

theorem Distinct.modify_eq_self {node inner : Node} (h : node.Distinct) {place : Place}
    (hinner : node.at? place = some inner) : node.modify (fun _ => inner) place = node := by
  induction place generalizing node with
  | nil => exact (Option.some.inj hinner).symm
  | cons name rest ih =>
    cases node with
    | leaf id => rfl
    | dir folder es =>
      obtain ⟨child, hchild, hrest⟩ := Option.bind_eq_some_iff.1 hinner
      have hentry (e : FileName × Node) (he : e ∈ es) :
          (if e.1 = name then (e.1, Node.modify (fun _ => inner) rest e.2) else e) = id e := by
        split_ifs with hname
        · have hsame : es.lookup e.1 = some e.2 := DistinctIn.lookup_of_mem h he
          obtain rfl : child = e.2 := Option.some.inj (hchild.symm.trans (hname ▸ hsame))
          rw [ih (DistinctIn.of_lookup h hchild) hrest]
          rfl
        · rfl
      exact congrArg (dir folder) ((List.map_congr_left hentry).trans (List.map_id es))

mutual

theorem purge_done (now : Instant) : ∀ (node : Node), node.isDir = true → node.Distinct →
    (∀ q folder es, node.at? q = some (dir folder es) → folder.mode.isFull = true) →
      (node.purge now).2 = none
  | leaf id, hdir, _, _ => by cases hdir
  | dir folder es, _, hes, hfull => by
    have hmode := hfull [] folder es rfl
    have hreadable := (Mode.isFull_iff.1 hmode).1
    rw [purge, if_pos hreadable]
    exact purgeEntries_done now folder hmode es hes fun name q => hfull (name :: q)

theorem purgeEntries_done (now : Instant) (folder : Folder) (hmode : folder.mode.isFull = true) :
    ∀ (es : List (FileName × Node)), DistinctIn es →
      (∀ name q inner es', (es.lookup name).bind (·.at? q) = some (dir inner es') →
        inner.mode.isFull = true) → (purgeEntries now folder es).2 = none
  | [], _, _ => rfl
  | (k, node) :: rest, ⟨hk, hnode, hrest⟩, hfull => by
    obtain ⟨-, hwritable, hsearchable⟩ := Mode.isFull_iff.1 hmode
    have hafter : (purgeEntries now folder rest).2 = none := by
      refine purgeEntries_done now folder hmode rest hrest fun name q inner es' hq => ?_
      obtain ⟨child, hchild, hq⟩ := Option.bind_eq_some_iff.1 hq
      refine hfull name q inner es' ?_
      rw [lookup_cons_of_lookup hk hchild]
      exact hq
    have hfirst (q : Place) (inner : Folder) (es' : List (FileName × Node))
        (hq : node.at? q = some (dir inner es')) : inner.mode.isFull = true := by
      refine hfull k q inner es' ?_
      rw [List.lookup_cons_self]
      exact hq
    cases node with
    | leaf id => simpa [purgeEntries, hwritable, hsearchable] using hafter
    | dir inner es' =>
      have hpurge := purge_done now (dir inner es') rfl hnode hfirst
      rw [purgeEntries, if_pos hsearchable]
      split
      · next left errno hleft =>
        rw [hleft] at hpurge
        cases hpurge
      · rw [if_pos hwritable]
        exact hafter

end

end Node

namespace FileSystem

variable {fs emptied : FileSystem} {path : Path} {place : Place}

/-- Nothing is locked that a removal of what a path leads to, with all below it, may need: each
directory there, and the one that holds the entry that the path names last. Of the others on the way
only what a walk asks of them is asked. -/
structure Unlocked (fs : FileSystem) (path : Path) : Prop where
  holder : ∀ b mode, fs.brink path = .ok b → fs.item? b.dir = some (.directory mode) →
    mode.isFull = true
  within : ∀ place q mode, fs.locateEntry path = .ok place → place <+: q →
    fs.item? q = some (.directory mode) → mode.isFull = true

/-- A path is spelled so that no directory can be removed under it: it ends in a dot or two or stands
for the root, or it ends in a link, which is then not followed. -/
def Unremovable (fs : FileSystem) (path : Path) : Prop :=
  ∃ b, fs.brink path = .ok b ∧
    ∀ n, b.last = some (.name n) → (fs.linkTarget? (b.dir ++ [n])).isSome = true

theorem Unremovable.congr {other : FileSystem} (h : fs.Unremovable path)
    (hbase : fs.base = other.base) (hsight : ∀ q, fs.sight? q = other.sight? q) :
    other.Unremovable path := by
  obtain ⟨b, hb, hlast⟩ := h
  refine ⟨b, brink_congr hbase hsight path ▸ hb, fun n hn => ?_⟩
  rw [← linkTarget?_congr hsight]
  exact hlast n hn

namespace Emptied

theorem item?_eq_none_or (h : Emptied fs emptied place) (q : Place) :
    emptied.item? q = none ∨ emptied.item? q = fs.item? q := by
  by_cases hq : place.Below q
  · exact .inl (h.gone q hq)
  · exact .inr (h.kept q hq)

theorem sight?_eq_none_or (h : Emptied fs emptied place) (q : Place) :
    emptied.sight? q = none ∨ emptied.sight? q = fs.sight? q := by
  rw [sight?_eq, sight?_eq]
  exact (h.item?_eq_none_or q).imp (fun hnone => by rw [hnone]; rfl) fun hsame => by rw [hsame]

/-- However a directory has been emptied, the same is seen everywhere. -/
theorem sight?_congr {other : FileSystem} (h : Emptied fs emptied place)
    (hother : Emptied fs other place) (q : Place) : emptied.sight? q = other.sight? q := by
  rw [sight?_eq, sight?_eq]
  by_cases hq : place.Below q
  · rw [h.gone q hq, hother.gone q hq]
  · rw [h.kept q hq, hother.kept q hq]

theorem unremovable_iff {other : FileSystem} (h : Emptied fs emptied place)
    (hother : Emptied fs other place) : emptied.Unremovable path ↔ other.Unremovable path :=
  ⟨fun hpath => hpath.congr (h.base.trans hother.base.symm) (h.sight?_congr hother),
    fun hpath => hpath.congr (hother.base.trans h.base.symm) (hother.sight?_congr h)⟩

end Emptied

theorem removeDirectory_of_no_name {b : Brink} (hb : fs.brink path = .ok b)
    (hlast : ∀ n, b.last ≠ some (.name n)) :
    ∃ errno, errno ≠ .missing ∧ fs.removeDirectory path = fail errno := by
  unfold removeDirectory
  rw [hb, ok_bind]
  split
  · exact ⟨_, by decide, rfl⟩
  · exact ⟨_, by decide, rfl⟩
  · exact ⟨_, by decide, rfl⟩
  · next n hn => exact absurd hn (hlast n)

theorem removeDirectory_of_name {b : Brink} {n : FileName} (hb : fs.brink path = .ok b)
    (hn : b.last = some (.name n)) (hshort : n.length ≤ nameLimit)
    (hmay : fs.mayChange b.dir = .ok ()) :
    fs.removeDirectory path =
      match fs.node? (b.dir ++ [n]) with
      | none => fail .missing
      | some (.leaf _) => fail .notDirectory
      | some (.dir _ []) => .ok (fs.dropEntry b.dir n)
      | some (.dir _ (_ :: _)) => fail .notEmpty := by
  rw [removeDirectory, hb, ok_bind, hn]
  simp only [checkName_eq_ok_iff.2 hshort, ok_bind, hmay]
  cases fs.node? (b.dir ++ [n]) with
  | none => rfl
  | some node =>
    cases node with
    | leaf id => rfl
    | dir folder es => cases es <;> rfl

theorem not_unremovable_of_name {b : Brink} {n : FileName} (hb : fs.brink path = .ok b)
    (hn : b.last = some (.name n)) (hlink : fs.linkTarget? (b.dir ++ [n]) = none) :
    ¬ fs.Unremovable path := by
  rintro ⟨c, hc, hspell⟩
  obtain rfl : c = b := Except.ok.inj (hc.symm.trans hb)
  have hsome := hspell n hn
  rw [hlink] at hsome
  cases hsome

theorem removeDirectory_emptied_name {b : Brink} {n : FileName} (hb : emptied.brink path = .ok b)
    (hn : b.last = some (.name n)) (hshort : n.length ≤ nameLimit)
    (hmay : emptied.mayChange b.dir = .ok ())
    (hthere : emptied.node? (b.dir ++ [n]) = none ∨
      (∃ touched, emptied.node? (b.dir ++ [n]) = some (.dir touched [])) ∨
      ∃ target, emptied.sight? (b.dir ++ [n]) = some (.link target)) :
    ((∃ after, emptied.removeDirectory path = .ok after) ∨
        emptied.removeDirectory path = fail .missing) ∧ ¬ emptied.Unremovable path ∨
      (∃ errno, errno ≠ .missing ∧ emptied.removeDirectory path = fail errno) ∧
        emptied.Unremovable path := by
  have hremove := removeDirectory_of_name hb hn hshort hmay
  rcases hthere with hnode | ⟨touched, hnode⟩ | ⟨target, hlink⟩
  · rw [hnode] at hremove
    have hnone : emptied.linkTarget? (b.dir ++ [n]) = none := by simp [linkTarget?, leaf?, hnode]
    exact .inl ⟨.inr hremove, not_unremovable_of_name hb hn hnone⟩
  · rw [hnode] at hremove
    have hnone : emptied.linkTarget? (b.dir ++ [n]) = none := by simp [linkTarget?, leaf?, hnode]
    exact .inl ⟨.inl ⟨_, hremove⟩, not_unremovable_of_name hb hn hnone⟩
  · obtain ⟨id, hnode⟩ := node?_of_sight?_link hlink
    rw [hnode] at hremove
    refine .inr ⟨⟨_, by decide, hremove⟩, b, hb, ?_⟩
    intro m hm
    obtain rfl : m = n := by simpa [hn] using hm.symm
    rw [(emptied.linkTarget?_eq_some_iff _ _).2 hlink]
    rfl

theorem removeDirectory_emptied (hfs : fs.WellFormed) (hopen : fs.Unlocked path)
    (h : fs.locateEntry path = .ok place) (hemptied : Emptied fs emptied place) {touched : Folder}
    (hnode : emptied.node? place = some (.dir touched [])) :
    ((∃ after, emptied.removeDirectory path = .ok after) ∨
        emptied.removeDirectory path = fail .missing) ∧ ¬ emptied.Unremovable path ∨
      (∃ errno, errno ≠ .missing ∧ emptied.removeDirectory path = fail errno) ∧
        emptied.Unremovable path := by
  obtain ⟨b, hb, hname⟩ := exists_brink_of_locateEntry h
  obtain hb' | hlost := brink_of_fewer hemptied.base hemptied.sight?_eq_none_or hb
  · by_cases hlast : ∃ n, b.last = some (.name n)
    · obtain ⟨n, hn⟩ := hlast
      -- The name stands for something at first, so that it is not too long.
      obtain ⟨⟨node, hfirst⟩, hthere⟩ := hname n hn
      have hshort : n.length ≤ nameLimit := (hfs.isProper_of_node? hfirst n (by simp)).short
      have hmay : emptied.mayChange b.dir = .ok () := by
        have hsight := (walkPath_eq_ok_iff.1 (brink_eq_ok_iff.1 hb').2).pass (by simp [hn])
        obtain ⟨folder, es, hdir⟩ := (emptied.node?_eq_dir_iff _).2 ⟨true, hsight⟩
        have hitem : emptied.item? b.dir = some (.directory folder.mode) := by
          rw [item?, hdir]
          rfl
        have hfull := hopen.holder b folder.mode hb (hemptied.item?_eq hitem).2
        exact mayChange_eq_ok_iff.2 ⟨folder, es, hdir, (Mode.isFull_iff.1 hfull).2⟩
      apply removeDirectory_emptied_name hb' hn hshort hmay
      rcases hthere with rfl | ⟨target, hlink⟩
      · exact .inr (.inl ⟨touched, hnode⟩)
      · -- A link in the directory itself is gone by now.
        rcases hemptied.sight?_eq_none_or (b.dir ++ [n]) with hgone | hkept
        · exact .inl (by simpa [sight?] using hgone)
        · exact .inr (.inr ⟨target, hkept.trans hlink⟩)
    · rw [not_exists] at hlast
      exact .inr ⟨removeDirectory_of_no_name hb' hlast, b, hb', fun n hn => absurd hn (hlast n)⟩
  · refine .inl ⟨.inr ?_, ?_⟩
    · rw [removeDirectory, hlost, fail_bind]
    · rintro ⟨c, hc, -⟩
      exact fail_ne_ok _ _ (hlost.symm.trans hc)

/-- Where nothing is locked, the removal of a directory with all below it fails only under a path
that is spelled so, and then it has emptied the directory. -/
theorem removeTree_unlocked (hfs : fs.WellFormed) (hopen : fs.Unlocked path)
    (h : fs.locateEntry path = .ok place) {folder : Folder} {es : List (FileName × Node)}
    (hnode : fs.node? place = some (.dir folder es)) :
    (fs.removeTree path).failure = none ∧ ¬ (fs.hollow place).Unremovable path ∨
      (fs.removeTree path).failure ≠ none ∧ (fs.hollow place).Unremovable path ∧
        Emptied fs (fs.removeTree path).files place ∧
        (es = [] → (fs.removeTree path).files = fs) := by
  have hfull (q : Place) (inner : Folder) (es' : List (FileName × Node))
      (hq : (Node.dir folder es).at? q = some (.dir inner es')) : inner.mode.isFull = true := by
    refine hopen.within place (place ++ q) inner.mode h (List.prefix_append _ _) ?_
    rw [item?, node?_append, hnode, Option.bind_some, hq]
    rfl
  have hpurge : ((Node.dir folder es).purge fs.clock).2 = none :=
    Node.purge_done fs.clock _ rfl (Node.Distinct.at? hfs.distinct hnode) hfull
  obtain ⟨folder', es', touched, hdir, hleft, hmode⟩ := Node.purge_eq_dir_nil hpurge
  obtain ⟨rfl, rfl⟩ := Node.dir.inj hdir
  have hemptied : Emptied fs (fs.modify place fun _ => .dir touched []) place :=
    emptied_modify hnode (congrArg Item.directory hmode) rfl
  have hthere : (fs.modify place fun _ => .dir touched []).node? place = some (.dir touched []) := by
    rw [node?_modify_self, hnode]
    rfl
  have hsame (hempty : es = []) : (fs.modify place fun _ => .dir touched []) = fs := by
    subst hempty
    have hreadable := (Mode.isFull_iff.1 (hfull [] folder [] rfl)).1
    have htouched : Node.dir folder [] = .dir touched [] := by
      rw [← hleft, Node.purge, if_pos hreadable, Node.purgeEntries]
      rfl
    have hroot := Node.Distinct.modify_eq_self hfs.distinct hnode
    rw [modify, ← htouched, hroot]
  have hparts : (Node.dir folder es).purge fs.clock = (.dir touched [], none) :=
    Prod.ext hleft hpurge
  -- `hollow` leaves another time behind than the removal does, but a walk sees the same in both.
  rw [← hemptied.unremovable_iff (emptied_hollow hnode)]
  obtain ⟨⟨after, hok⟩ | hmissing, hspell⟩ | ⟨⟨errno, hne, herror⟩, hspell⟩ :=
    removeDirectory_emptied hfs hopen h hemptied hthere
  · have htree : fs.removeTree path = ⟨after, none⟩ := by
      simp only [removeTree, h, hnode, hparts, hok]
    rw [htree]
    exact .inl ⟨rfl, hspell⟩
  · have htree : fs.removeTree path = ⟨fs.modify place fun _ => .dir touched [], none⟩ := by
      simp [removeTree, h, hnode, hparts, hmissing, fail]
    rw [htree]
    exact .inl ⟨rfl, hspell⟩
  · have htree : fs.removeTree path =
        ⟨fs.modify place fun _ => .dir touched [], some (.os errno)⟩ := by
      simp [removeTree, h, hnode, hparts, herror, fail, hne]
    rw [htree]
    exact .inr ⟨Option.some_ne_none _, hspell, hemptied, hsame⟩

theorem exists_dir_of_below {q : Place} (hq : place.Below q) (hitem : fs.item? q ≠ none) :
    ∃ folder es, fs.node? place = some (.dir folder es) ∧ es ≠ [] := by
  obtain ⟨name, rest, rfl⟩ := hq
  rw [Ne, item?_eq_none_iff, node?_append] at hitem
  cases hnode : fs.node? place with
  | none => simp [hnode] at hitem
  | some node =>
    rw [hnode] at hitem
    cases node with
    | leaf id => exact absurd rfl hitem
    | dir folder es =>
      refine ⟨folder, es, rfl, ?_⟩
      rintro rfl
      exact hitem rfl

theorem exists_item?_below {folder : Folder} {es : List (FileName × Node)}
    (hnode : fs.node? place = some (.dir folder es)) (hes : es ≠ []) :
    ∃ q, place.Below q ∧ fs.item? q ≠ none := by
  obtain ⟨⟨name, node⟩, rest, rfl⟩ := List.exists_cons_of_ne_nil hes
  refine ⟨place ++ [name], ⟨name, [], rfl⟩, ?_⟩
  simp [item?, hnode, Node.child?, Node.entries]

end FileSystem

namespace Command

variable {w : World} {path : Path}

theorem removal_of_dir {place : Place} {folder : Folder} {es : List (FileName × Node)}
    (h : w.files.locateEntry path = .ok place)
    (hnode : w.files.node? place = some (.dir folder es)) :
    removal w true path = w.leave path (w.files.removeTree path) := by
  have hstatus : w.files.entryStatus path = .ok ⟨.directory, folder.modified⟩ := by
    rw [FileSystem.entryStatus, h, FileSystem.ok_bind, FileSystem.statusAt, hnode]
    rfl
  simp only [removal, hstatus, decide_true]

theorem removal_of_no_dir {recursive : Bool} {failure : Failure}
    (hnone : ∀ place folder es, w.files.locateEntry path = .ok place →
      w.files.node? place ≠ some (.dir folder es))
    (hfailed : (removal w recursive path).verdict = .failed failure) :
    (removal w recursive path).world.files = w.files := by
  unfold removal at hfailed ⊢
  split at hfailed
  · rfl
  · next status hstatus =>
    obtain ⟨place, node, hplace, hnode, rfl⟩ := entryStatus_eq_ok hstatus
    cases node with
    | dir folder es => exact absurd hnode (hnone place folder es hplace)
    | leaf id =>
      simp only [w.files.kind_statusOf_leaf id, decide_false] at hfailed ⊢
      cases hfile : w.files.removeFile path with
      | error fault => rfl
      | ok files =>
        rw [hfile] at hfailed
        cases hfailed

/-- Where nothing is locked, `rm -r` fails after it has changed something exactly if its operand
leads to a directory that is not empty and, once that directory is empty, is spelled so that no
directory can be removed under it. All that was in the directory is gone then, and nothing else. -/
theorem rm_refused_unlocked (s : Surroundings) (w : World) {args : List Text} {arg : Text}
    (hargs : rmOperand? args = some (true, arg)) (hfiles : w.files.WellFormed)
    (hopen : w.files.Unlocked (w.session.resolve arg)) :
    let path := w.session.resolve arg
    let e := execute s w rm.name.toList args
    let before := w.files
    let after := e.world.files
    ((∃ failure, e.verdict = .failed failure) ∧ after ≠ before ↔
      ∃ place, before.locateEntry path = .ok place ∧
        (∃ q, place.Below q ∧ before.item? q ≠ none) ∧ (before.hollow place).Unremovable path) ∧
    ∀ place failure, before.locateEntry path = .ok place → e.verdict = .failed failure →
      after ≠ before → before.Emptied after place := by
  obtain ⟨hworld, hverdict⟩ := execute_name s w args rm
  dsimp only
  rw [hworld, hverdict, run, runRm_eq, hargs]
  dsimp only
  generalize w.session.resolve arg = path at hopen ⊢
  by_cases hdir : ∃ place folder es, w.files.locateEntry path = .ok place ∧
      w.files.node? place = some (.dir folder es)
  · obtain ⟨place, folder, es, hplace, hnode⟩ := hdir
    have honly {there : Place} (h : w.files.locateEntry path = .ok there) : there = place :=
      Except.ok.inj (h.symm.trans hplace)
    rw [removal_of_dir hplace hnode]
    rcases FileSystem.removeTree_unlocked hfiles hopen hplace hnode with
      ⟨hdone, hspell⟩ | ⟨hfailed, hspell, hemptied, hsame⟩
    · rw [World.leave_of_done w path hdone]
      refine ⟨⟨?_, ?_⟩, ?_⟩
      · rintro ⟨⟨failure, h⟩, -⟩
        cases h
      · rintro ⟨there, hthere, -, h⟩
        exact absurd (honly hthere ▸ h) hspell
      · intro there failure _ h
        cases h
    · obtain ⟨fault, hfault⟩ := Option.ne_none_iff_exists'.1 hfailed
      rw [World.leave_of_failed w path hfault]
      refine ⟨⟨?_, ?_⟩, ?_⟩
      · rintro ⟨-, hchanged⟩
        have hes : es ≠ [] := fun hes => hchanged (hsame hes)
        exact ⟨place, hplace, FileSystem.exists_item?_below hnode hes, hspell⟩
      · rintro ⟨there, hthere, ⟨q, hq, hitem⟩, -⟩
        obtain rfl := honly hthere
        refine ⟨⟨_, rfl⟩, fun heq => hitem ?_⟩
        rw [← hemptied.gone q hq]
        exact congrArg (·.item? q) heq.symm
      · intro there failure hthere _ _
        exact honly hthere ▸ hemptied
  · have hnone (place : Place) (folder : Folder) (es : List (FileName × Node))
        (hplace : w.files.locateEntry path = .ok place) :
        w.files.node? place ≠ some (.dir folder es) :=
      fun hnode => hdir ⟨place, folder, es, hplace, hnode⟩
    refine ⟨⟨?_, ?_⟩, ?_⟩
    · rintro ⟨⟨failure, h⟩, hchanged⟩
      exact absurd (removal_of_no_dir hnone h) hchanged
    · rintro ⟨place, hplace, ⟨q, hq, hitem⟩, -⟩
      obtain ⟨folder, es, hnode, -⟩ := FileSystem.exists_dir_of_below hq hitem
      exact absurd hnode (hnone place folder es hplace)
    · intro place failure _ h hchanged
      exact absurd (removal_of_no_dir hnone h) hchanged

theorem aboveTree_wellFormed : aboveTree.files.WellFormed :=
  .of_places ⟨rfl, ⟨rfl, trivial, rfl, trivial, trivial⟩, trivial⟩ (by decide) (by decide)

theorem aboveTree_unlocked (path : Path) : aboveTree.files.Unlocked path := by
  have hitems : ∀ place ∈ aboveTree.files.root.places, ∀ item ∈ aboveTree.files.item? place,
      item = .directory 0o755#12 ∨ item = .leaf 0 (.file []) 0o644#12 := by decide
  have hfull (q : Place) (mode : Mode) (h : aboveTree.files.item? q = some (.directory mode)) :
      mode.isFull = true := by
    rcases hitems q (FileSystem.mem_places_of_item? h) _ h with hdir | hleaf
    · rw [Item.directory.inj hdir]
      rfl
    · cases hleaf
  exact ⟨fun b mode _ => hfull b.dir mode, fun _ q mode _ _ => hfull q mode⟩

theorem rm_refused_unlocked_of_tree :
    rmOperand? [recursiveFlag, ['d', '/', '.']] = some (true, ['d', '/', '.']) ∧
      aboveTree.files.WellFormed ∧
      aboveTree.files.Unlocked (aboveTree.session.resolve ['d', '/', '.']) ∧
      aboveTree.files.Emptied
        (execute ⟨none, .universal⟩ aboveTree rm.name.toList
          [recursiveFlag, ['d', '/', '.']]).world.files [[0x64]] := by
  have hunlocked := aboveTree_unlocked (aboveTree.session.resolve ['d', '/', '.'])
  obtain ⟨hiff, hemptied⟩ := rm_refused_unlocked ⟨none, .universal⟩ aboveTree
    (show rmOperand? [recursiveFlag, ['d', '/', '.']] = _ from rfl) aboveTree_wellFormed hunlocked
  have hthere : aboveTree.files.locateEntry (aboveTree.session.resolve ['d', '/', '.']) =
      .ok [[0x64]] := rfl
  have hspell : (aboveTree.files.hollow [[0x64]]).Unremovable
      (aboveTree.session.resolve ['d', '/', '.']) :=
    ⟨⟨[[0x64]], some .here, false⟩, rfl, fun n hn => by cases hn⟩
  have hbelow : ∃ q, Place.Below [[0x64]] q ∧ aboveTree.files.item? q ≠ none :=
    ⟨[[0x64], [0x66]], ⟨[0x66], [], rfl⟩, by decide⟩
  obtain ⟨⟨failure, hfailed⟩, hchanged⟩ := hiff.2 ⟨_, hthere, hbelow, hspell⟩
  exact ⟨rfl, aboveTree_wellFormed, hunlocked, hemptied _ failure hthere hfailed hchanged⟩

/-- `rm -r d/.` fails where nothing is locked, and what was in `d` is gone. -/
theorem rm_refused_has_emptied :
    let operand := ['d', '/', '.']
    let e := execute ⟨none, .universal⟩ aboveTree rm.name.toList [recursiveFlag, operand]
    aboveTree.files.WellFormed ∧ aboveTree.files.Unlocked (aboveTree.session.resolve operand) ∧
      e.verdict = .failed (.files (aboveTree.session.resolve operand) (.os .invalid)) ∧
      aboveTree.files.item? [[0x64], [0x66]] = some (.leaf 0 (.file []) 0o644#12) ∧
      e.world.files.item? [[0x64], [0x66]] = none ∧ e.world.files ≠ aboveTree.files := by
  refine ⟨aboveTree_wellFormed, aboveTree_unlocked _, rfl, rfl, rfl, fun heq => ?_⟩
  have hsame := congrArg (·.item? [[0x64], [0x66]]) heq
  exact absurd hsame (by decide +kernel)

end Command
end FileShell
