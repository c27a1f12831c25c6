import FileShell.Proofs.CommandFrame
import FileShell.Proofs.Changes

namespace FileShell

namespace Item

def leafId? : Item → Option LeafId
  | leaf id _ _ => some id
  | directory _ => none

def content? : Item → Option Bytes
  | leaf _ (.file content) _ => some content
  | _ => none

theorem withLeaf_of_ne {item : Item} {id : LeafId} (h : item.leafId? ≠ some id) (new : Leaf) :
    item.withLeaf id new = item := by
  cases item with
  | directory mode => rfl
  | leaf i body mode => exact if_neg fun heq => h (congrArg some heq)

theorem content?_withLeaf_self {item : Item} {id : LeafId} {new : Leaf} {content : Bytes}
    (h : item.leafId? = some id) (hbody : new.body = .file content) :
    (item.withLeaf id new).content? = some content := by
  cases item with
  | directory mode => cases h
  | leaf i body mode =>
    obtain rfl := Option.some.inj h
    simp [withLeaf, content?, hbody]

end Item

namespace FileSystem

/-- What stands where a path leads. -/
def itemAt? (fs : FileSystem) (path : Path) : Option Item :=
  match fs.locate path with
  | .ok place => fs.item? place
  | .error _ => none

/-- The file that a path leads to, one and the same for all its names. -/
def leafAt? (fs : FileSystem) (path : Path) : Option LeafId := (fs.itemAt? path).bind Item.leafId?

/-- The bytes of the regular file that a path leads to. -/
def contentAt? (fs : FileSystem) (path : Path) : Option Bytes :=
  (fs.itemAt? path).bind Item.content?

def LeadsToPipe (fs : FileSystem) (path : Path) : Prop :=
  ∃ id mode, fs.itemAt? path = some (.leaf id .pipe mode)

variable {fs after : FileSystem} {source target path : Path} {reader id : LeafId}
  {content : Bytes} {mode : Mode} {item : Item}

theorem itemAt?_eq_some_iff :
    fs.itemAt? path = some item ↔
      ∃ place, fs.locate path = .ok place ∧ fs.item? place = some item := by
  unfold itemAt?
  cases fs.locate path with
  | error fault => simp
  | ok place => simp

theorem leafAt?_eq_some_iff :
    fs.leafAt? path = some id ↔
      fs.itemAt? path = some (.leaf id (fs.leaves id).body (fs.leaves id).mode) := by
  refine ⟨fun h => ?_, fun h => by rw [leafAt?, h]; rfl⟩
  obtain ⟨item, hitem, hid⟩ := Option.bind_eq_some_iff.1 h
  cases item with
  | directory mode => cases hid
  | leaf i body mode =>
    obtain rfl := Option.some.inj hid
    obtain ⟨place, -, hplace⟩ := itemAt?_eq_some_iff.1 hitem
    obtain ⟨-, rfl, rfl⟩ := item?_eq_leaf_iff.1 hplace
    exact hitem

theorem item_of_openForReading (h : fs.openForReading source = .ok reader) :
    ∃ mode, fs.itemAt? source = some (.leaf reader (.file (fs.contentOf reader)) mode) := by
  obtain ⟨place, content, hplace, hnode, hbody, -⟩ := openForReading_eq_ok h
  have hcontent : (fs.leaves reader).body = .file (fs.contentOf reader) := by
    rw [contentOf, hbody]
  exact ⟨_, itemAt?_eq_some_iff.2 ⟨place, hplace, item?_eq_leaf_iff.2 ⟨hnode, hcontent, rfl⟩⟩⟩

/-- What copying `content` out of the file `reader` makes of a file system. -/
inductive Copied (fs : FileSystem) (reader : LeafId) (content : Bytes) (target : Path) :
    FileSystem → Prop where
  | made {b : Brink} {n : FileName} {folder : Folder} {es : List (FileName × Node)} {leaf : Leaf}
      (hwalk : fs.walkPath .always target = .ok b) (haccept : accept target = .ok ())
      (hlast : b.last = some (.name n)) (hslash : b.slash = false) (hname : n.length ≤ nameLimit)
      (hnone : fs.node? (b.dir ++ [n]) = none)
      (hdir : fs.node? b.dir = some (.dir folder es)) (hbody : leaf.body = .file content) :
      Copied fs reader content target (fs.putLeaf b.dir n leaf)
  | filled {id : LeafId} {old : Bytes} {mode : Mode} {leaf : Leaf}
      (hitem : fs.itemAt? target = some (.leaf id (.file old) mode))
      (hbody : leaf.body = .file (if id = reader then [] else content)) :
      Copied fs reader content target (fs.setLeaf id leaf)
  | passed {id : LeafId} {mode : Mode} (hitem : fs.itemAt? target = some (.leaf id .pipe mode)) :
      Copied fs reader content target fs

/-- What a copy leaves in the file that it has written; the mode is kept whole if nothing is written. -/
def written (mode : Mode) (content : Bytes) (now : Instant) : Leaf :=
  ⟨.file content, if content = [] then mode else afterWrite mode, now⟩

theorem fill_setRegularMode (fs : FileSystem) (id : LeafId) (old mode : Mode) (content : Bytes) :
    ((fs.setLeaf id ⟨.file [], old, fs.clock⟩).setRegularMode id mode).fill id content =
      fs.setLeaf id (written mode content fs.clock) := by
  have hset : (fs.setLeaf id ⟨.file [], old, fs.clock⟩).setRegularMode id mode =
      fs.setLeaf id ⟨.file [], mode, fs.clock⟩ := by
    simp only [setRegularMode, leaves_setLeaf_self, setLeaf_setLeaf]
  rw [hset]
  by_cases hempty : content = []
  · simp [fill, leaves_setLeaf_self, hempty, written]
  · simp only [fill, leaves_setLeaf_self, List.isEmpty_iff, hempty, if_false, setLeaf_setLeaf, written]
    rfl

theorem contentOf_emptied (fs : FileSystem) (id reader : LeafId) (mode : Mode) (now : Instant) :
    (fs.setLeaf id ⟨.file [], mode, now⟩).contentOf reader =
      if id = reader then [] else fs.contentOf reader := by
  by_cases hid : reader = id
  · simp [contentOf, setLeaf, hid]
  · simp [contentOf, setLeaf, hid, Ne.symm hid]

theorem opens_of_copy (h : fs.copy source target = ⟨after, none⟩) :
    ∃ reader id opened, fs.openForReading source = .ok reader ∧
      fs.openForWriting target (fs.leaves reader).mode = .ok (id, opened) ∧
      (opened.setRegularMode id (fs.leaves reader).mode).fill id (opened.contentOf reader) = after := by
  unfold copy at h
  cases hreader : fs.openForReading source with
  | error fault =>
    rw [hreader] at h
    cases h
  | ok reader =>
    rw [hreader] at h
    dsimp only at h
    cases hopen : fs.openForWriting target (fs.leaves reader).mode with
    | error fault =>
      rw [hopen] at h
      cases h
    | ok opened =>
      rw [hopen] at h
      exact ⟨reader, opened.1, opened.2, rfl, hopen, congrArg Attempt.files h⟩

/-- A copy that is done has made a new file, written to the one that was there, or given its content to
a pipe. -/
theorem copy_eq_ok (h : fs.copy source target = ⟨after, none⟩) :
    ∃ reader, fs.openForReading source = .ok reader ∧ accept target = .ok () ∧
      ∃ b n, fs.walkPath .always target = .ok b ∧ b.last = some (.name n) ∧ b.slash = false ∧
        n.length ≤ nameLimit ∧
        ((fs.node? (b.dir ++ [n]) = none ∧ (∃ folder es, fs.node? b.dir = some (.dir folder es)) ∧
            after = fs.putLeaf b.dir n
              (written (fs.leaves reader).mode (fs.contentOf reader) fs.clock)) ∨
          ∃ id, fs.node? (b.dir ++ [n]) = some (.leaf id) ∧
            ((∃ old, (fs.leaves id).body = .file old ∧
                after = fs.setLeaf id (written (fs.leaves reader).mode
                  (if id = reader then [] else fs.contentOf reader) fs.clock)) ∨
              (fs.leaves id).body = .pipe ∧ after = fs)) := by
  obtain ⟨reader, id, opened, hreader, hopen, rfl⟩ := opens_of_copy h
  obtain ⟨haccept, b, n, hwalk, hlast, hslash, hname, hcases⟩ := openForWriting_eq_ok hopen
  refine ⟨reader, hreader, haccept, b, n, hwalk, hlast, hslash, hname, ?_⟩
  obtain ⟨hnone, rfl, hdir, rfl⟩ | ⟨hnode, hbodies⟩ := hcases
  · -- Nothing was there: the new file has a number of its own, and the source is read unharmed.
    obtain ⟨place, -, -, hplace, -⟩ := openForReading_eq_ok hreader
    have hne : reader ≠ fs.root.fresh :=
      Nat.ne_of_lt (Node.lt_fresh_of_at? fs.root place reader hplace)
    have hread : (fs.putLeaf b.dir n ⟨.file [], (fs.leaves reader).mode, fs.clock⟩).contentOf
        reader = fs.contentOf reader := by
      simp [contentOf, putLeaf, setLeaf, hne, putEntry, modify]
    refine .inl ⟨hnone, hdir, ?_⟩
    rw [hread]
    exact fill_setRegularMode (fs.putEntry b.dir n _) _ _ _ _
  refine .inr ⟨id, hnode, ?_⟩
  obtain ⟨old, hbody, rfl⟩ | ⟨hbody, hopened⟩ := hbodies
  · -- The file that was there has been emptied before the source is read, and may be the source.
    refine .inl ⟨old, hbody, ?_⟩
    rw [contentOf_emptied]
    exact fill_setRegularMode fs id _ _ _
  · refine .inr ⟨hbody, ?_⟩
    rw [hopened]
    simp [setRegularMode, fill, hbody]

theorem itemAt?_of_walk {b : Brink} {n : FileName} (haccept : accept target = .ok ())
    (hwalk : fs.walkPath .always target = .ok b) (hlast : b.last = some (.name n))
    (hslash : b.slash = false) (hname : n.length ≤ nameLimit)
    (hnode : fs.node? (b.dir ++ [n]) = some (.leaf id)) :
    fs.itemAt? target = some (.leaf id (fs.leaves id).body (fs.leaves id).mode) := by
  refine itemAt?_eq_some_iff.2 ⟨b.dir ++ [n], locate_eq_ok_iff.2 ⟨haccept, b, hwalk, ?_⟩,
    item?_eq_leaf_iff.2 ⟨hnode, rfl, rfl⟩⟩
  exact (settle_name_eq_ok_iff hlast).2 ⟨hname, rfl, _, hnode, by simp [hslash]⟩

theorem copied_of_copy (h : fs.copy source target = ⟨after, none⟩) :
    ∃ reader content mode, fs.itemAt? source = some (.leaf reader (.file content) mode) ∧
      Copied fs reader content target after := by
  obtain ⟨reader, hreader, haccept, b, n, hwalk, hlast, hslash, hname, hcases⟩ := copy_eq_ok h
  obtain ⟨mode, hsource⟩ := item_of_openForReading hreader
  refine ⟨reader, fs.contentOf reader, mode, hsource, ?_⟩
  obtain ⟨hnone, ⟨folder, es, hdir⟩, rfl⟩ | ⟨id, hnode, hcases⟩ := hcases
  · exact .made hwalk haccept hlast hslash hname hnone hdir rfl
  have htarget := itemAt?_of_walk haccept hwalk hlast hslash hname hnode
  obtain ⟨old, hbody, rfl⟩ | ⟨hbody, rfl⟩ := hcases
  · exact .filled (hbody ▸ htarget) rfl
  · exact .passed (hbody ▸ htarget)

namespace Copied

theorem within (h : Copied fs reader content target after) : Within fs after := by
  cases h with
  | made _ _ _ _ _ hnone hdir _ =>
    exact within_of_item? rfl fun place item hplace => by
      rw [item?_putLeaf_of_item? hdir hnone hplace, Option.map_some]
  | @filled id old mode leaf hitem hbody =>
    obtain ⟨file, -, hfile⟩ := itemAt?_eq_some_iff.1 hitem
    obtain ⟨-, hold, -⟩ := item?_eq_leaf_iff.1 hfile
    refine within_of_item? rfl fun place item hplace => ?_
    rw [item?_setLeaf, hplace, Option.map_some, Option.map_some]
    cases item with
    | directory mode => rfl
    | leaf i body mode =>
      obtain ⟨-, rfl, -⟩ := item?_eq_leaf_iff.1 hplace
      by_cases hi : i = id
      · subst hi
        simp [Item.withLeaf, Item.sight, hold, hbody]
      · simp [Item.withLeaf, hi]
  | passed => exact ⟨rfl, fun _ _ => id⟩

theorem contentAt?_eq (h : Copied fs reader content target after) {place : Place}
    (hplace : fs.locate path = .ok place) :
    after.contentAt? path = (after.item? place).bind Item.content? := by
  rw [contentAt?, itemAt?, locate_mono h.within hplace]

theorem contentAt?_source (h : Copied fs reader content target after)
    (hsource : fs.itemAt? source = some (.leaf reader (.file content) mode))
    (hne : fs.leafAt? target ≠ some reader) : after.contentAt? source = some content := by
  obtain ⟨place, hplace, hread⟩ := itemAt?_eq_some_iff.1 hsource
  rw [h.contentAt?_eq hplace]
  cases h with
  | made _ _ _ _ _ hnone hdir _ =>
    rw [item?_putLeaf_of_item? hdir hnone hread]
    rfl
  | @filled id old _ leaf hitem hbody =>
    have hother : Item.leafId? (.leaf reader (.file content) mode) ≠ some id :=
      fun heq => hne (by rw [leafAt?, hitem]; exact heq.symm)
    rw [item?_setLeaf, hread, Option.map_some, Item.withLeaf_of_ne hother]
    rfl
  | passed =>
    rw [hread]
    rfl

theorem itemAt?_eq_none {b : Brink} {n : FileName} (hwalk : fs.walkPath .always target = .ok b)
    (hlast : b.last = some (.name n)) (hnone : fs.node? (b.dir ++ [n]) = none) :
    fs.itemAt? target = none := by
  refine Option.eq_none_iff_forall_ne_some.2 fun item hitem => ?_
  obtain ⟨place, hplace, -⟩ := itemAt?_eq_some_iff.1 hitem
  obtain ⟨-, b', hwalk', hsettle⟩ := locate_eq_ok_iff.1 hplace
  obtain rfl := Except.ok.inj (hwalk.symm.trans hwalk')
  obtain ⟨-, -, node, hnode, -⟩ := (settle_name_eq_ok_iff hlast).1 hsettle
  rw [hnone] at hnode
  cases hnode

theorem contentAt?_of_same (h : Copied fs reader content target after)
    (hsame : fs.leafAt? target = some reader) (hread : (fs.leaves reader).body = .file content)
    (hpath : fs.leafAt? path = some reader) : after.contentAt? path = some [] := by
  obtain ⟨place, hplace, hitem⟩ := itemAt?_eq_some_iff.1 (leafAt?_eq_some_iff.1 hpath)
  rw [h.contentAt?_eq hplace]
  cases h with
  | made hwalk _ hlast _ _ hnone _ _ =>
    rw [leafAt?, itemAt?_eq_none hwalk hlast hnone] at hsame
    cases hsame
  | filled htarget hbody =>
    rw [leafAt?, htarget] at hsame
    obtain rfl := Option.some.inj hsame
    rw [item?_setLeaf, hitem, Option.map_some, Option.bind_some]
    exact Item.content?_withLeaf_self rfl (by rw [hbody, if_pos rfl])
  | passed htarget =>
    rw [leafAt?_eq_some_iff, htarget, hread] at hsame
    cases hsame

theorem contentAt?_target (h : Copied fs reader content target after)
    (hne : fs.leafAt? target ≠ some reader) (hpipe : ¬ fs.LeadsToPipe target) :
    after.contentAt? target = some content := by
  cases h with
  | @made b n folder es leaf hwalk haccept hlast hslash hname hnone hdir hbody =>
    have hmade : Copied fs reader content target (fs.putLeaf b.dir n leaf) :=
      .made hwalk haccept hlast hslash hname hnone hdir hbody
    have hitem := item?_putLeaf_self hdir n leaf
    have hlocate : (fs.putLeaf b.dir n leaf).locate target = .ok (b.dir ++ [n]) := by
      refine locate_eq_ok_iff.2 ⟨haccept, b,
        walkPath_mono hmade.within hwalk fun m dest hm hlink => ?_,
        (settle_name_eq_ok_iff hlast).2 ⟨hname, rfl, _, (item?_eq_leaf_iff.1 hitem).1,
          by simp [hslash]⟩⟩
      obtain rfl : n = m := by simpa [hlast] using hm
      rw [sight?_eq, hitem, hbody] at hlink
      cases hlink
    rw [contentAt?, itemAt?, hlocate]
    dsimp only
    rw [hitem, hbody]
    rfl
  | @filled id old mode leaf hitem hbody =>
    have hother : id ≠ reader := fun heq => hne (by rw [leafAt?, hitem, heq]; rfl)
    obtain ⟨place, hplace, hold⟩ := itemAt?_eq_some_iff.1 hitem
    rw [(filled hitem hbody).contentAt?_eq hplace, item?_setLeaf, hold, Option.map_some,
      Option.bind_some]
    exact Item.content?_withLeaf_self rfl (by rw [hbody, if_neg hother])
  | passed hitem => exact absurd ⟨_, _, hitem⟩ hpipe

theorem contentAt?_pipe (h : Copied fs reader content target after)
    (hpipe : fs.LeadsToPipe target) : after.contentAt? target = none := by
  obtain ⟨id, mode, htarget⟩ := hpipe
  cases h with
  | made hwalk _ hlast _ _ hnone _ _ =>
    rw [itemAt?_eq_none hwalk hlast hnone] at htarget
    cases htarget
  | filled hitem =>
    rw [hitem] at htarget
    cases htarget
  | passed hitem =>
    rw [contentAt?, hitem]
    rfl

end Copied

/-- A copy leaves both names with the content of the source unless both lead to one file that was
not empty, or the destination is a pipe. -/
theorem copy_contents (h : fs.copy source target = ⟨after, none⟩) :
    ∃ content, fs.contentAt? source = some content ∧
      ((after.contentAt? source = some content ∧ after.contentAt? target = some content) ↔
        ¬ fs.LeadsToPipe target ∧ (fs.leafAt? target = fs.leafAt? source → content = [])) ∧
      (fs.leafAt? target = fs.leafAt? source →
        after.contentAt? source = some [] ∧ after.contentAt? target = some []) ∧
      (fs.leafAt? target ≠ fs.leafAt? source → after.contentAt? source = some content) := by
  obtain ⟨reader, content, mode, hsource, hcopied⟩ := copied_of_copy h
  have hreader : fs.leafAt? source = some reader := by rw [leafAt?, hsource]; rfl
  have hread : (fs.leaves reader).body = .file content := by
    rw [leafAt?_eq_some_iff, hsource] at hreader
    exact (Item.leaf.inj (Option.some.inj hreader)).2.1.symm
  have hsame (h : fs.leafAt? target = some reader) :
      after.contentAt? source = some [] ∧ after.contentAt? target = some [] :=
    ⟨hcopied.contentAt?_of_same h hread hreader, hcopied.contentAt?_of_same h hread h⟩
  have hkept := hcopied.contentAt?_source hsource
  rw [hreader]
  have hbefore : fs.contentAt? source = some content := by rw [contentAt?, hsource]; rfl
  refine ⟨content, hbefore, ⟨fun ⟨hs, ht⟩ => ⟨fun hpipe => ?_, fun heq => ?_⟩,
    fun ⟨hpipe, hempty⟩ => ?_⟩, hsame, hkept⟩
  · rw [hcopied.contentAt?_pipe hpipe] at ht
    cases ht
  · rw [(hsame heq).1] at hs
    exact (Option.some.inj hs).symm
  · by_cases heq : fs.leafAt? target = some reader
    · rw [hempty heq]
      exact hsame heq
    · exact ⟨hkept heq, hcopied.contentAt?_target heq hpipe⟩

end FileSystem

namespace Command

theorem copy_of_runCp {w : World} {src dst : Text} {rest : List Text} {flow : Flow}
    (h : (runCp w (src :: dst :: rest)).verdict = .done flow) :
    w.files.copy (w.session.resolve src) (w.session.resolve dst) =
      ⟨(runCp w (src :: dst :: rest)).world.files, none⟩ := by
  unfold runCp at h ⊢
  dsimp only at h ⊢
  split_ifs at h ⊢
  · cases h
  · exact World.files_of_leave h

/-- `cp`, when it is done, leaves the source with its content and the destination with the same
content if the two are different files or the source is empty, and only then; a file copied onto
itself under any names is left empty. -/
theorem cp_contents (s : Surroundings) (w : World) (src dst : Text) (rest : List Text) (flow : Flow)
    (hdone : (execute s w cp.name.toList (src :: dst :: rest)).verdict = .done flow) :
    let before := w.files
    let after := (execute s w cp.name.toList (src :: dst :: rest)).world.files
    let source := w.session.resolve src
    let target := w.session.resolve dst
    ∃ content, before.contentAt? source = some content ∧
      ((after.contentAt? source = some content ∧ after.contentAt? target = some content) ↔
        ¬ before.LeadsToPipe target ∧
          (before.leafAt? target = before.leafAt? source → content = [])) ∧
      (before.leafAt? target = before.leafAt? source →
        after.contentAt? source = some [] ∧ after.contentAt? target = some []) ∧
      (before.leafAt? target ≠ before.leafAt? source → after.contentAt? source = some content) :=
  FileSystem.copy_contents (copy_of_runCp hdone)

/-- A shell in a directory with nothing but a file `a` of one byte. -/
def besideFile : World :=
  ⟨(FileSystem.empty 0).putLeaf [] [0x61] ⟨.file [0x78], 0o644#12, 0⟩,
    ⟨[], .unknown⟩, []⟩

theorem cp_contents_of_new_name :
    ∃ content, besideFile.files.contentAt? (besideFile.session.resolve ['a']) = some content ∧
      (execute ⟨none, .universal⟩ besideFile cp.name.toList [['a'], ['b']]).world.files.contentAt?
        (besideFile.session.resolve ['b']) = some content := by
  have hdone : (execute ⟨none, .universal⟩ besideFile cp.name.toList [['a'], ['b']]).verdict =
      .done .stay := by decide +kernel
  obtain ⟨content, hbefore, hiff, -⟩ :=
    cp_contents ⟨none, .universal⟩ besideFile ['a'] ['b'] [] .stay hdone
  have hnothing : besideFile.files.itemAt? (besideFile.session.resolve ['b']) = none := by
    decide +kernel
  refine ⟨content, hbefore, (hiff.2 ⟨fun ⟨id, mode, hpipe⟩ => ?_, fun heq => ?_⟩).2⟩
  · rw [hnothing] at hpipe
    cases hpipe
  · exact absurd heq (by decide +kernel)

theorem cp_empties_file_copied_onto_itself :
    let e := execute ⟨none, .universal⟩ besideFile cp.name.toList [['a'], ['a']]
    e.verdict = .done .stay ∧
      besideFile.files.contentAt? (besideFile.session.resolve ['a']) = some [0x78] ∧
      e.world.files.contentAt? (besideFile.session.resolve ['a']) = some [] := by
  decide +kernel

end Command
end FileShell
