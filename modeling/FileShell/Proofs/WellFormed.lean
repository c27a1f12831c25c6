import FileShell.Proofs.CopyContents
import FileShell.Proofs.PathNames
import FileShell.Proofs.Removal

namespace FileShell

theorem Node.eq_of_at?_leaf {id : LeafId} {rest : Place} {n : Node}
    (h : (leaf id).at? rest = some n) : rest = [] ∧ n = leaf id := by
  cases rest with
  | nil => exact ⟨rfl, (Option.some.inj h).symm⟩
  | cons m rest => cases h

mutual

/-- Every place in a tree at which there is something. -/
def Node.places : Node → List Place
  | leaf _ => [[]]
  | dir _ es => [] :: placesIn es

def Node.placesIn : List (FileName × Node) → List Place
  | [] => []
  | (name, node) :: rest => node.places.map (name :: ·) ++ placesIn rest

end

mutual

theorem Node.mem_places : ∀ (node : Node) (p : Place) (n : Node), node.at? p = some n →
    p ∈ node.places
  | leaf id, p, n, h => by
    rw [(eq_of_at?_leaf h).1]
    exact List.mem_singleton_self _
  | dir folder es, p, n, h => by
    cases p with
    | nil => exact List.mem_cons_self
    | cons name rest => exact List.mem_cons_of_mem _ (mem_placesIn es name rest n h)

theorem Node.mem_placesIn : ∀ (es : List (FileName × Node)) (name : FileName) (rest : Place)
    (n : Node), (es.lookup name).bind (·.at? rest) = some n → name :: rest ∈ placesIn es
  | [], _, _, _, h => by simp at h
  | (k, node) :: es, name, rest, n, h => by
    rw [placesIn, List.mem_append]
    rw [List.lookup_cons] at h
    split at h
    · next hk =>
      rw [eq_of_beq hk]
      exact .inl (List.mem_map_of_mem (mem_places node rest n h))
    · exact .inr (mem_placesIn es name rest n h)

end

namespace FileSystem

variable {fs after : FileSystem} {path : Path}

theorem mem_places_of_item? {place : Place} {item : Item} (h : fs.item? place = some item) :
    place ∈ fs.root.places := by
  obtain ⟨n, hn, -⟩ := Option.map_eq_some_iff.1 h
  exact Node.mem_places fs.root place n hn

structure WellFormed (fs : FileSystem) : Prop where
  distinct : fs.HasDistinctNames
  names : ∀ place item, fs.item? place = some item → ∀ n ∈ place, FileName.IsProper n
  targets : ∀ place id target mode, fs.item? place = some (.leaf id (.link target) mode) →
    (0 : UInt8) ∉ target.bytes

theorem accept_eq_ok_iff :
    accept path = .ok () ↔
      (0 : UInt8) ∉ path.bytes ∧ path.bytes ≠ [] ∧ path.bytes.length ≤ pathLimit := by
  unfold accept
  split_ifs with hnul hempty hlong
  · simpa using fun h => absurd (by simpa using hnul) h
  · simpa using fun _ h => absurd (by simpa using hempty) h
  · simpa using fun _ _ => hlong
  · simpa using ⟨by simpa using hnul, by simpa using hempty, Nat.le_of_not_lt hlong⟩

theorem sight?_eq_link_iff {place : Place} {target : Path} :
    fs.sight? place = some (.link target) ↔
      ∃ id mode, fs.item? place = some (.leaf id (.link target) mode) := by
  rw [sight?_eq]
  constructor
  · intro h
    obtain ⟨item, hitem, hsight⟩ := Option.map_eq_some_iff.1 h
    cases item with
    | directory mode => simp [Item.sight] at hsight
    | leaf id body mode =>
      cases body with
      | link other =>
        obtain rfl := Sight.link.inj hsight
        exact ⟨id, mode, hitem⟩
      | _ => simp [Item.sight] at hsight
  · rintro ⟨id, mode, hitem⟩
    rw [hitem]
    rfl

/-- The place at and below which an entry is put is the only one at which anything new is. -/
theorem item?_putEntry_cases {dir q : Place} {name : FileName} {child : Node} {item : Item}
    (h : (fs.putEntry dir name child).item? q = some item) :
    fs.item? q = some item ∨ (∃ folder es, fs.node? dir = some (.dir folder es)) ∧
      ∃ rest n, q = dir ++ name :: rest ∧ child.at? rest = some n ∧ item = fs.itemOf n := by
  by_cases hdir : ∃ folder es, fs.node? dir = some (.dir folder es)
  · obtain ⟨folder, es, hnode⟩ := hdir
    by_cases hq : dir ++ [name] <+: q
    · obtain ⟨rest, rfl⟩ := hq
      obtain ⟨n, hn, hitem⟩ : ∃ n, child.at? rest = some n ∧ fs.itemOf n = item := by
        simpa [item?, putEntry, hnode] using h
      exact .inr ⟨⟨folder, es, hnode⟩, rest, n, by simp, hn, hitem.symm⟩
    · have hsame := item?_putEntry_of_not_isPrefix hnode hq child
      rw [hsame] at h
      exact .inl h
  · -- Where no directory is, nothing is put.
    by_cases hq : dir <+: q
    · obtain ⟨rest, rfl⟩ := hq
      rw [item?, putEntry, node?_append, node?_modify_self] at h
      rw [item?, node?_append]
      cases hnode : fs.node? dir with
      | none => simp [hnode] at h
      | some node =>
        cases node with
        | leaf id =>
          rw [hnode] at h
          exact .inl h
        | dir folder es => exact absurd ⟨folder, es, hnode⟩ hdir
    · rw [putEntry, item?_modify_of_not_isPrefix fs hq] at h
      exact .inl h

theorem item?_modify_withFolder (fs : FileSystem) {place q : Place} (hq : q ≠ place)
    (change : Folder → Folder) :
    (fs.modify place (Node.withFolder change)).item? q = fs.item? q := by
  by_cases hprefix : place <+: q
  · obtain rfl | ⟨name, rest, rfl⟩ := Place.below_or_eq_of_prefix hprefix
    · exact absurd rfl hq
    · unfold item?
      cases hnode : fs.node? place with
      | none => simp [hnode]
      | some node => simp [hnode]
  · exact item?_modify_of_not_isPrefix fs hprefix _

namespace WellFormed

/-- Being well formed is checked place by place. -/
theorem of_places (hdistinct : fs.HasDistinctNames)
    (hnames : ∀ place ∈ fs.root.places, ∀ n ∈ place, FileName.IsProper n)
    (htargets : ∀ place ∈ fs.root.places, ∀ target ∈ fs.linkTarget? place,
      (0 : UInt8) ∉ target.bytes) : fs.WellFormed := by
  refine ⟨hdistinct, fun place item h => hnames place (mem_places_of_item? h), ?_⟩
  intro place id target mode h
  have hlink := (fs.linkTarget?_eq_some_iff _ _).2 (sight?_eq_link_iff.2 ⟨id, mode, h⟩)
  exact htargets place (mem_places_of_item? h) target hlink

theorem isProper_of_node? (h : fs.WellFormed) {place : Place} {node : Node}
    (hnode : fs.node? place = some node) : ∀ n ∈ place, FileName.IsProper n :=
  h.names place (fs.itemOf node) (by simp [item?, hnode])

theorem isProper_of_walkPath (h : fs.WellFormed) {following : Following} {b : Brink} {n : FileName}
    (haccept : accept path = .ok ()) (hwalk : fs.walkPath following path = .ok b)
    (hlast : b.last = some (.name n)) (hshort : n.length ≤ nameLimit) : n.IsProper := by
  have hpath := (accept_eq_ok_iff.1 haccept).1
  obtain hc | ⟨place, target, hlink, hc⟩ := (walkPath_eq_ok_iff.1 hwalk).last_mem hlast
  · obtain ⟨hpiece, hbytes⟩ := Path.of_name_mem_components hc
    exact ⟨hpiece, fun hnul => hpath (hbytes _ hnul), hshort⟩
  · obtain ⟨id, mode, hitem⟩ := sight?_eq_link_iff.1 hlink
    obtain ⟨hpiece, hbytes⟩ := Path.of_name_mem_components hc
    exact ⟨hpiece, fun hnul => h.targets place id target mode hitem (hbytes _ hnul), hshort⟩

theorem isProper_of_brink (h : fs.WellFormed) {b : Brink} {n : FileName}
    (hb : fs.brink path = .ok b) (hlast : b.last = some (.name n)) (hshort : n.length ≤ nameLimit) :
    n.IsProper := by
  obtain ⟨haccept, hwalk⟩ := brink_eq_ok_iff.1 hb
  exact h.isProper_of_walkPath haccept hwalk hlast hshort

theorem of_pruned (h : fs.WellFormed) (hdistinct : after.HasDistinctNames)
    (hitem : ∀ q, after.item? q = none ∨ after.item? q = fs.item? q) : after.WellFormed := by
  have hkept {q : Place} {item : Item} (hq : after.item? q = some item) : fs.item? q = some item := by
    obtain hnone | hsame := hitem q
    · rw [hnone] at hq
      cases hq
    · exact hsame ▸ hq
  exact ⟨hdistinct, fun place item hplace => h.names place item (hkept hplace),
    fun place id target mode hplace => h.targets place id target mode (hkept hplace)⟩

theorem dropEntry (h : fs.WellFormed) (dir : Place) (name : FileName) :
    (fs.dropEntry dir name).WellFormed := by
  refine h.of_pruned (h.distinct.dropEntry dir name) fun q => ?_
  by_cases hq : dir ++ [name] <+: q
  · exact .inl (item?_dropEntry_of_isPrefix fs hq)
  · exact .inr (item?_dropEntry_of_not_isPrefix fs hq)

theorem putEntry (h : fs.WellFormed) (dir : Place) {name : FileName} (hname : name.IsProper)
    {child : Node} (hdistinct : child.Distinct)
    (hchild : ∀ rest n, child.at? rest = some n → ∀ m ∈ rest, FileName.IsProper m)
    (htargets : ∀ rest n id target mode, child.at? rest = some n →
      fs.itemOf n = .leaf id (.link target) mode → (0 : UInt8) ∉ target.bytes) :
    (fs.putEntry dir name child).WellFormed := by
  refine ⟨h.distinct.putEntry dir name hdistinct, fun q item hq => ?_,
    fun q id target mode hq => ?_⟩
  · obtain hold | ⟨⟨folder, es, hdir⟩, rest, n, rfl, hn, -⟩ := item?_putEntry_cases hq
    · exact h.names q item hold
    · simp only [List.mem_append, List.mem_cons]
      rintro m (hm | rfl | hm)
      · exact h.isProper_of_node? hdir m hm
      · exact hname
      · exact hchild rest n hn m hm
  · obtain hold | ⟨-, rest, n, -, hn, hitem⟩ := item?_putEntry_cases hq
    · exact h.targets q id target mode hold
    · exact htargets rest n id target mode hn hitem.symm

theorem setLeaf (h : fs.WellFormed) (id : LeafId) {leaf : Leaf}
    (hbody : ∀ target, leaf.body = .link target → (0 : UInt8) ∉ target.bytes) :
    (fs.setLeaf id leaf).WellFormed := by
  refine ⟨h.distinct.setLeaf id leaf, fun q item hq => ?_, fun q i target mode hq => ?_⟩
  · rw [item?_setLeaf] at hq
    obtain ⟨old, hold, -⟩ := Option.map_eq_some_iff.1 hq
    exact h.names q old hold
  · rw [item?_setLeaf] at hq
    obtain ⟨old, hold, hitem⟩ := Option.map_eq_some_iff.1 hq
    cases old with
    | directory mode => simp [Item.withLeaf] at hitem
    | leaf j body m =>
      rw [Item.withLeaf] at hitem
      split_ifs at hitem with hj
      · obtain ⟨-, hlink, -⟩ := Item.leaf.inj hitem
        exact hbody target hlink
      · obtain ⟨-, rfl, -⟩ := Item.leaf.inj hitem
        exact h.targets q j target m hold

theorem makeDirectory (h : fs.WellFormed) (hok : fs.makeDirectory path = .ok after) :
    after.WellFormed := by
  obtain ⟨b, n, hb, hlast, hshort, -, -, rfl⟩ := makeDirectory_eq_ok hok
  have hproper := h.isProper_of_brink hb hlast hshort
  have hnothing {rest : Place} {node : Node}
      (hrest : (Node.dir (fs.newFolder b.dir) []).at? rest = some node) :
      rest = [] ∧ node = .dir (fs.newFolder b.dir) [] := by
    cases rest with
    | nil => exact ⟨rfl, (Option.some.inj hrest).symm⟩
    | cons m rest => cases hrest
  refine h.putEntry b.dir hproper trivial (fun rest node hrest => ?_)
    fun rest node id target mode hrest hitem => ?_
  · simp [(hnothing hrest).1]
  · rw [(hnothing hrest).2] at hitem
    cases hitem

theorem removeDirectory (h : fs.WellFormed) (hok : fs.removeDirectory path = .ok after) :
    after.WellFormed := by
  obtain ⟨b, n, -, -, -, -, -, -, rfl⟩ := removeDirectory_eq_ok hok
  exact h.dropEntry b.dir n

theorem removeFile (h : fs.WellFormed) (hok : fs.removeFile path = .ok after) :
    after.WellFormed := by
  obtain ⟨b, n, -, -, -, -, -, -, -, rfl⟩ := removeFile_eq_ok hok
  exact h.dropEntry b.dir n

theorem rename {new : Path} (h : fs.WellFormed) (hok : fs.rename path new = .ok after) :
    after.WellFormed := by
  obtain ⟨b, c, n, m, node, -, hc, -, hm, -, hshort, hnode, ⟨-, -, -, rfl⟩ | ⟨-, -, -, -, rfl⟩⟩ :=
    rename_eq_ok hok
  · exact h
  · have hproper := h.isProper_of_brink hc hm hshort
    have hthere {rest : Place} {inner : Node} (hrest : node.at? rest = some inner) :
        fs.node? (b.dir ++ [n] ++ rest) = some inner := by
      rw [node?_append, hnode]
      exact hrest
    refine (h.dropEntry b.dir n).putEntry c.dir hproper (Node.Distinct.at? h.distinct hnode)
      (fun rest inner hrest k hk => ?_) fun rest inner id target mode hrest hitem => ?_
    · exact h.isProper_of_node? (hthere hrest) k (List.mem_append_right _ hk)
    · exact h.targets _ id target mode (by rw [item?, hthere hrest]; exact congrArg some hitem)

theorem target_of_leaf (h : fs.WellFormed) {place : Place} {id : LeafId} {target : Path}
    (hnode : fs.node? place = some (.leaf id)) (hbody : (fs.leaves id).body = .link target) :
    (0 : UInt8) ∉ target.bytes :=
  h.targets place id target _ (item?_eq_leaf_iff.2 ⟨hnode, hbody, rfl⟩)

theorem setMode (h : fs.WellFormed) (place : Place) (mode : Mode) :
    (fs.setMode place mode).WellFormed := by
  have hdistinct := h.distinct.setMode place mode
  unfold FileSystem.setMode at hdistinct ⊢
  split
  · next id hnode => exact h.setLeaf id fun target hbody => h.target_of_leaf hnode hbody
  · next folder es hnode =>
    have hitem {q : Place} {item : Item} (hq : (fs.modify place (Node.withFolder fun folder =>
        { folder with mode := mode })).item? q = some item) :
        fs.item? q = some item ∨ q = place ∧ item = .directory mode := by
      by_cases hplace : q = place
      · subst hplace
        rw [item?, node?_modify_self, hnode] at hq
        exact .inr ⟨rfl, (Option.some.inj hq).symm⟩
      · exact .inl (item?_modify_withFolder fs hplace _ ▸ hq)
    refine ⟨h.distinct.modify place fun _ hn => hn.withFolder _, fun q item hq => ?_,
      fun q id target m hq => ?_⟩
    · obtain hold | ⟨rfl, -⟩ := hitem hq
      · exact h.names q item hold
      · exact h.isProper_of_node? hnode
    · obtain hold | ⟨-, hdir⟩ := hitem hq
      · exact h.targets q id target m hold
      · cases hdir
  · exact h

theorem changeMode {mode : Mode} (h : fs.WellFormed) (hok : fs.changeMode path mode = .ok after) :
    after.WellFormed := by
  unfold FileSystem.changeMode at hok
  split at hok
  · cases hok
  · obtain ⟨place, -, hok⟩ := bind_eq_ok_iff.1 hok
    exact Except.ok.inj hok ▸ h.setMode place mode

theorem putLeaf (h : fs.WellFormed) (dir : Place) {name : FileName} (hname : name.IsProper)
    {leaf : Leaf} (hbody : ∀ target, leaf.body ≠ .link target) :
    (fs.putLeaf dir name leaf).WellFormed := by
  have hdistinct := (h.distinct.putEntry dir name (Node.distinct_leaf fs.root.fresh)).setLeaf
    fs.root.fresh leaf
  refine ⟨hdistinct, fun q item hq => ?_, fun q id target mode hq => ?_⟩
  · rw [FileSystem.putLeaf, item?_setLeaf] at hq
    obtain ⟨old, hold, -⟩ := Option.map_eq_some_iff.1 hq
    obtain hold | ⟨⟨folder, es, hdir⟩, rest, n, rfl, hn, -⟩ := item?_putEntry_cases hold
    · exact h.names q old hold
    · rw [(Node.eq_of_at?_leaf hn).1]
      simp only [List.mem_append, List.mem_singleton]
      rintro m (hm | rfl)
      · exact h.isProper_of_node? hdir m hm
      · exact hname
  · -- The new leaf is no link, and every other was there before.
    rw [FileSystem.putLeaf, item?_setLeaf] at hq
    obtain ⟨old, hold, hitem⟩ := Option.map_eq_some_iff.1 hq
    cases old with
    | directory mode => cases hitem
    | leaf i body m =>
      rw [Item.withLeaf] at hitem
      split_ifs at hitem with hi
      · exact absurd (Item.leaf.inj hitem).2.1 (hbody target)
      · obtain ⟨-, rfl, -⟩ := Item.leaf.inj hitem
        obtain hold | ⟨-, rest, n, -, hn, hnew⟩ := item?_putEntry_cases hold
        · exact h.targets q i target m hold
        · rw [(Node.eq_of_at?_leaf hn).2] at hnew
          exact absurd (Item.leaf.inj hnew).1 hi

theorem copy (h : fs.WellFormed) (path target : Path) : (fs.copy path target).files.WellFormed := by
  cases hfailure : (fs.copy path target).failure with
  | some fault => rwa [fs.copy_spares path target fault hfailure]
  | none =>
    obtain ⟨reader, content, mode, -, hcopied⟩ := copied_of_copy (Attempt.eq_of_done hfailure)
    generalize (fs.copy path target).files = after at hcopied ⊢
    cases hcopied with
    | made hwalk haccept hlast _ hname _ _ hbody =>
      have hproper := h.isProper_of_walkPath haccept hwalk hlast hname
      exact h.putLeaf _ hproper fun _ hlink => by simp [hbody] at hlink
    | filled _ hbody => exact h.setLeaf _ fun _ hlink => by simp [hbody] at hlink
    | passed _ => exact h

theorem removeTree (h : fs.WellFormed) (path : Path) : (fs.removeTree path).files.WellFormed := by
  have hdistinct := h.distinct.removeTree path
  cases hplace : fs.locateEntry path with
  | error fault =>
    have hsame : (fs.removeTree path).files = fs := by simp [FileSystem.removeTree, hplace]
    rwa [hsame]
  | ok place =>
    cases hnode : fs.node? place with
    | none =>
      have hsame : (fs.removeTree path).files = fs := by simp [FileSystem.removeTree, hplace, hnode]
      rwa [hsame]
    | some node =>
      cases node with
      | leaf id =>
        have hsame : (fs.removeTree path).files = fs := by
          simp [FileSystem.removeTree, hplace, hnode]
        rwa [hsame]
      | dir folder es =>
        refine h.of_pruned hdistinct fun q => ?_
        obtain ⟨-, -, hremoved⟩ | ⟨-, -, hemptied⟩ | ⟨-, hpruned⟩ :=
          removeTree_cases h.distinct hplace hnode
        · by_cases hq : place <+: q
          · exact .inl (hremoved.gone q hq)
          · exact .inr (hremoved.kept q hq)
        · by_cases hq : place.Below q
          · exact .inl (hemptied.gone q hq)
          · exact .inr (hemptied.kept q hq)
        · by_cases hq : place.Below q
          · exact hpruned.below q hq
          · exact .inr (hpruned.kept q hq)

end WellFormed
end FileSystem
end FileShell
