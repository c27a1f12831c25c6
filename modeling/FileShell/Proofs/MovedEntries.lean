import FileShell.Proofs.SessionDirectory

namespace FileShell

namespace FileSystem

variable {fs after : FileSystem} {path new : Path} {place target : Place}

/-- Two places are one, or one file stands at both. -/
def SameAt (fs : FileSystem) (place target : Place) : Prop :=
  place = target ∨ ∃ id, fs.node? place = some (.leaf id) ∧ fs.node? target = some (.leaf id)

/-- The node at a place is at another place, with all that lies below it: neither place lies below the
other, and nothing is lost but one node of its kind that held nothing. Nothing else has changed but the
times of directories, and below the moved node not even those. -/
structure Moved (before after : FileSystem) (place target : Place) : Prop where
  apart : ¬ place <+: target ∧ ¬ target <+: place
  gone : ∀ q, place <+: q → after.item? q = none
  found : ∀ rest, after.item? (target ++ rest) = before.item? (place ++ rest)
  replaced : ∀ present, before.node? target = some present → present.entries = [] ∧
    ∃ node, before.node? place = some node ∧ node.isDir = present.isDir
  kept : ∀ q, ¬ place <+: q → ¬ target <+: q → after.item? q = before.item? q
  untouched : after.node? target = before.node? place ∧ after.leaves = before.leaves

theorem isDir_eq_of_kindsAgree {node present : Node} (h : kindsAgree node present = .ok ()) :
    node.isDir = present.isDir := by
  cases node with
  | leaf id =>
    cases present with
    | leaf other => rfl
    | dir folder es => cases h
  | dir folder es =>
    cases present with
    | leaf id => cases h
    | dir other es' => rfl

theorem isDir_eq_of_sameNode {node present : Node} (h : sameNode place target node present = true) :
    node.isDir = present.isDir := by
  cases node with
  | leaf id =>
    cases present with
    | leaf other => rfl
    | dir folder es => cases h
  | dir folder es =>
    cases present with
    | leaf id => cases h
    | dir other es' => rfl

theorem isDir_of_prefix {q : Place} {folder : Folder} {es : List (FileName × Node)}
    (hdir : fs.node? q = some (.dir folder es)) (habove : place <+: q) :
    ∃ node, fs.node? place = some node ∧ node.isDir = true := by
  obtain rfl | ⟨name, rest, rfl⟩ := Place.below_or_eq_of_prefix habove
  · exact ⟨_, hdir, rfl⟩
  · rw [node?_append] at hdir
    obtain ⟨node, hnode, hbelow⟩ := Option.bind_eq_some_iff.1 hdir
    cases node with
    | leaf id => cases hbelow
    | dir folder es => exact ⟨_, hnode, rfl⟩

theorem sameNode_self (place : Place) (node : Node) : sameNode place place node node = true := by
  cases node <;> simp [sameNode]

theorem sameAt_of_sameNode {node present : Node} (hnode : fs.node? place = some node)
    (hpresent : fs.node? target = some present)
    (h : sameNode place target node present = true) : fs.SameAt place target := by
  cases node with
  | leaf id =>
    cases present with
    | leaf other =>
      obtain rfl : id = other := by simpa [sameNode] using h
      exact .inr ⟨id, hnode, hpresent⟩
    | dir folder es => cases h
  | dir folder es =>
    cases present with
    | leaf id => cases h
    | dir other es' => exact .inl (by simpa [sameNode] using h)

/-- A node taken from one entry and put under another, neither of which lies below the other. -/
theorem moved_putEntry {dir dest : Place} {n m : FileName} {node : Node} {folder : Folder}
    {es : List (FileName × Node)} (hnode : fs.node? (dir ++ [n]) = some node)
    (hdest : fs.node? dest = some (.dir folder es))
    (hplace : ¬ dir ++ [n] <+: dest ++ [m]) (htarget : ¬ dest ++ [m] <+: dir ++ [n])
    (hpresent : ∀ present, fs.node? (dest ++ [m]) = some present →
      present.entries = [] ∧ node.isDir = present.isDir) :
    Moved fs ((fs.dropEntry dir n).putEntry dest m node) (dir ++ [n]) (dest ++ [m]) := by
  -- The directory that the node is put into is still there without the entry.
  obtain ⟨folder', es', hdest'⟩ : ∃ folder' es',
      (fs.dropEntry dir n).node? dest = some (.dir folder' es') := by
    have hkept : (fs.dropEntry dir n).item? dest = fs.item? dest :=
      item?_dropEntry_of_not_isPrefix fs fun h => hplace (h.trans (List.prefix_append dest [m]))
    rw [item?, item?, hdest] at hkept
    obtain ⟨there, hthere, hitem⟩ := Option.map_eq_some_iff.1 hkept
    cases there with
    | leaf id => cases hitem
    | dir folder' es' => exact ⟨folder', es', hthere⟩
  have hput := node?_putEntry_self hdest' m node
  refine ⟨⟨hplace, htarget⟩, fun q hq => ?_, fun rest => ?_, fun present h => ?_, fun q hq hq' => ?_,
    hput.trans hnode.symm, rfl⟩
  · have hbeside : ¬ dest ++ [m] <+: q := fun h =>
      (List.prefix_or_prefix_of_prefix hq h).elim hplace htarget
    rw [ item?_putEntry_of_not_isPrefix hdest' hbeside, item?_dropEntry_of_isPrefix fs hq]
  · rw [item?, item?, node?_append _ (dest ++ [m]), node?_append _ (dir ++ [n]), hput, hnode]
    rfl
  · exact ⟨(hpresent present h).1, node, hnode, (hpresent present h).2⟩
  · rw [ item?_putEntry_of_not_isPrefix hdest' hq', item?_dropEntry_of_not_isPrefix fs hq]

/-- A path names the entry at a place, be there something or not: its last name in the directory that
it leads into. -/
def Names (fs : FileSystem) (path : Path) (place : Place) : Prop :=
  ∃ b n, fs.brink path = .ok b ∧ b.last = some (.name n) ∧ place = b.dir ++ [n]

section Rename

variable {b c : Brink} {n m : FileName} {node : Node} (h : fs.rename path new = .ok after)
  (hb : fs.brink path = .ok b) (hc : fs.brink new = .ok c) (hn : b.last = some (.name n))
  (hm : c.last = some (.name m)) (hnode : fs.node? (b.dir ++ [n]) = some node)
include h hb hc hn hm hnode

theorem isDir_of_rename : (b.slash = true → node.isDir = true) ∧
    (c.slash = true → node.isDir = true) := by
  have hslash := (rename_guards h hb hc hn hm hnode).1
  cases hdir : node.isDir with
  | true => exact ⟨fun _ => rfl, fun _ => rfl⟩
  | false => simp [hslash hdir]

/-- Neither of two different names lies below the other in a rename that is done. -/
theorem apart_of_rename (hne : b.dir ++ [n] ≠ c.dir ++ [m]) :
    ¬ b.dir ++ [n] <+: c.dir ++ [m] ∧ ¬ c.dir ++ [m] <+: b.dir ++ [n] := by
  obtain ⟨-, hinside, hguards⟩ := rename_guards h hb hc hn hm hnode
  obtain ⟨folder, es, hdir⟩ := dir_of_brink hb (by simp [hn])
  obtain ⟨folder', es', hdest⟩ := dir_of_brink hc (by simp [hm])
  constructor
  · intro hbelow
    obtain heq | hbelow := List.prefix_concat_iff.1 hbelow
    · exact hne heq
    · obtain ⟨there, hthere, hisdir⟩ := isDir_of_prefix hdest hbelow
      obtain rfl := Option.some.inj (hnode.symm.trans hthere)
      exact hinside hisdir hbelow
  · intro habove
    obtain heq | habove := List.prefix_concat_iff.1 habove
    · exact hne heq.symm
    · obtain ⟨present, hpresent, hisdir⟩ := isDir_of_prefix hdir habove
      exact (hguards present hpresent).1 hisdir habove

end Rename

theorem moved_of_rename (h : fs.rename path new = .ok after) :
    ∃ place target, fs.locateEntry path = .ok place ∧ fs.Names new target ∧
      (fs.item? target ≠ none → fs.locateEntry new = .ok target) ∧
      (fs.SameAt place target ∧ after = fs ∨ Moved fs after place target ∧
        (after.brink new = fs.brink new → after.locateEntry new = .ok target)) := by
  obtain ⟨b, c, n, m, node, hb, hc, hn, hm, hshort, hshort', hnode, hcases⟩ := rename_eq_ok h
  obtain ⟨hslash, hslash'⟩ := isDir_of_rename h hb hc hn hm hnode
  have hkind (present : Node) (hpresent : fs.node? (c.dir ++ [m]) = some present) :
      node.isDir = present.isDir := by
    obtain ⟨other, hother, hsame, -⟩ | ⟨hfound, -⟩ := hcases
    · obtain rfl := Option.some.inj (hother.symm.trans hpresent)
      exact isDir_eq_of_sameNode hsame
    · exact isDir_eq_of_kindsAgree (hfound present hpresent).1
  refine ⟨b.dir ++ [n], c.dir ++ [m], locateEntry_of_brink hb hn hshort hnode hslash,
    ⟨c, m, hc, hm, rfl⟩, fun hitem => ?_, ?_⟩
  · obtain ⟨present, hpresent⟩ := Option.ne_none_iff_exists'.1 (mt item?_eq_none_iff.2 hitem)
    exact locateEntry_of_brink hc hm hshort' hpresent fun hs => hkind present hpresent ▸ hslash' hs
  · by_cases hne : b.dir ++ [n] = c.dir ++ [m]
    · have hsame := ((rename_guards h hb hc hn hm hnode).2.2 node (hne ▸ hnode)).2
      exact .inl ⟨.inl hne, hsame (hne ▸ sameNode_self _ node)⟩
    obtain ⟨present, hpresent, hsame, rfl⟩ | ⟨hfound, -, -, -, rfl⟩ := hcases
    · exact .inl ⟨sameAt_of_sameNode hnode hpresent hsame, rfl⟩
    · obtain ⟨hout, haway⟩ := apart_of_rename h hb hc hn hm hnode hne
      obtain ⟨folder, es, hdest⟩ := dir_of_brink hc (by simp [hm])
      have hmoved := moved_putEntry hnode hdest hout haway fun present hpresent =>
        ⟨(hfound present hpresent).2, hkind present hpresent⟩
      refine .inr ⟨hmoved, fun hbrink => ?_⟩
      exact locateEntry_of_brink (hbrink.trans hc) hm hshort' (hmoved.untouched.1.trans hnode) hslash'

end FileSystem

namespace Command

theorem rename_of_runMv {w : World} {src dst : Text} {rest : List Text} {flow : Flow}
    (h : (runMv w (src :: dst :: rest)).verdict = .done flow) :
    w.files.rename (w.session.resolve src) (w.session.resolve dst) =
      .ok (runMv w (src :: dst :: rest)).world.files := by
  unfold runMv at h ⊢
  dsimp only at h ⊢
  split at h
  · cases h
  · exact World.files_of_apply h

/-- `mv`, when it is done, has found one file under both its operands and changed nothing; or the
entry that the source names is gone, what it held is at the entry that the destination names, which
held no more than an empty directory, and all other entries are as they were. The tree stays well
formed. -/
theorem mv_moves (s : Surroundings) (w : World) (src dst : Text) (rest : List Text) (flow : Flow)
    (hdone : (execute s w mv.name.toList (src :: dst :: rest)).verdict = .done flow) :
    let before := w.files
    let after := (execute s w mv.name.toList (src :: dst :: rest)).world.files
    let new := w.session.resolve dst
    ∃ place target, before.locateEntry (w.session.resolve src) = .ok place ∧
      before.Names new target ∧ (before.item? target ≠ none → before.locateEntry new = .ok target) ∧
      (before.SameAt place target ∧ after = before ∨ before.Moved after place target ∧
        (after.brink new = before.brink new → after.locateEntry new = .ok target)) ∧
      (before.WellFormed → after.WellFormed) := by
  have hrename : w.files.rename (w.session.resolve src) (w.session.resolve dst) =
      .ok (execute s w mv.name.toList (src :: dst :: rest)).world.files := rename_of_runMv hdone
  obtain ⟨place, target, hplace, hnames, hthere, hmoved⟩ := FileSystem.moved_of_rename hrename
  exact ⟨place, target, hplace, hnames, hthere, hmoved, fun h => h.rename hrename⟩

/-- A link is moved into the directory that it leads to, and is a link there. -/
theorem mv_moves_link :
    let w : World := ⟨besideLink, ⟨[], .unknown⟩, []⟩
    let e := execute ⟨none, .universal⟩ w mv.name.toList [['l'], ['d', '/', 'k']]
    e.verdict = .done .stay ∧ w.files.Moved e.world.files [[0x6C]] [[0x64], [0x6B]] ∧
      e.world.files.item? [[0x64], [0x6B]] = some (.leaf 0 (.link ⟨[0x64]⟩) 0o777#12) := by
  intro w e
  have hdone : e.verdict = .done .stay := rfl
  obtain ⟨place, target, hplace, ⟨b, n, hb, hn, rfl⟩, -, hcases, -⟩ :=
    mv_moves ⟨none, .universal⟩ w ['l'] ['d', '/', 'k'] [] .stay hdone
  obtain rfl : [[0x6C]] = place := Except.ok.inj hplace
  obtain rfl : (⟨[[0x64]], some (.name [0x6B]), false⟩ : Brink) = b := Except.ok.inj hb
  obtain rfl : [0x6B] = n := Component.name.inj (Option.some.inj hn)
  obtain ⟨hsame | ⟨id, -, hpresent⟩, -⟩ | ⟨hmoved, -⟩ := hcases
  · exact absurd hsame (by decide)
  · cases hpresent
  · exact ⟨hdone, hmoved, hmoved.found []⟩

end Command
end FileShell
