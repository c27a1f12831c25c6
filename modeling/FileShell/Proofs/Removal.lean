import FileShell.FileSystem.Removal
import FileShell.Proofs.DistinctNames
import FileShell.Proofs.Items

namespace FileShell

namespace Node

theorem purgeEntries_eq_nil {now : Instant} {folder : Folder} {es : List (FileName × Node)}
    (h : (purgeEntries now folder es).2 = none) : (purgeEntries now folder es).1 = [] := by
  induction es with
  | nil => rfl
  | cons e es ih =>
    obtain heq | ⟨left, errno, heq, -⟩ := purgeEntries_cons now folder e.1 e.2 es
    · rw [heq] at h ⊢
      exact ih h
    · rw [heq] at h
      cases h

theorem purge_eq_dir_nil {now : Instant} {node : Node} (h : (node.purge now).2 = none) :
    ∃ folder es touched, node = dir folder es ∧ (node.purge now).1 = dir touched [] ∧
      touched.mode = folder.mode := by
  cases node with
  | leaf id => cases h
  | dir folder es =>
    rw [purge] at h ⊢
    split_ifs at h ⊢
    refine ⟨folder, es, _, rfl, congrArg (dir _) (purgeEntries_eq_nil h), ?_⟩
    split_ifs <;> rfl

mutual

/-- What is left of a directory that is being emptied is as it was, times aside. -/
theorem itemOf_of_purge (fs : FileSystem) (now : Instant) : ∀ (node : Node), node.Distinct →
    ∀ (p : Place) (n : Node), (node.purge now).1.at? p = some n →
      ∃ n', node.at? p = some n' ∧ fs.itemOf n' = fs.itemOf n
  | leaf id, _, p, n, hn => ⟨n, hn, rfl⟩
  | dir folder es, hes, p, n, hn => by
    rw [purge] at hn
    split_ifs at hn with hreadable
    · cases p with
      | nil =>
        obtain rfl := Option.some.inj hn
        refine ⟨_, rfl, ?_⟩
        dsimp only [FileSystem.itemOf]
        split_ifs <;> rfl
      | cons name rest => exact itemOf_of_purgeEntries fs now folder es hes name rest n hn
    · exact ⟨n, hn, rfl⟩

theorem itemOf_of_purgeEntries (fs : FileSystem) (now : Instant) (folder : Folder) :
    ∀ (es : List (FileName × Node)), DistinctIn es → ∀ (name : FileName) (p : Place) (n : Node),
      ((purgeEntries now folder es).1.lookup name).bind (·.at? p) = some n →
        ∃ n', (es.lookup name).bind (·.at? p) = some n' ∧ fs.itemOf n' = fs.itemOf n
  | [], _, name, p, n, hn => by simp [purgeEntries] at hn
  | (k, node) :: rest, ⟨hk, hnode, hrest⟩, name, p, n, hn => by
    have hinner := itemOf_of_purge fs now node hnode
    have hafter := itemOf_of_purgeEntries fs now folder rest hrest name p n
    obtain heq | ⟨left, errno, heq, hleft⟩ := purgeEntries_cons now folder k node rest
    · -- The first entry is gone, and no other has its name.
      rw [heq] at hn
      obtain ⟨n', hn', hsame⟩ := hafter hn
      obtain ⟨child, hchild, hn'⟩ := Option.bind_eq_some_iff.1 hn'
      refine ⟨n', ?_, hsame⟩
      rw [lookup_cons_of_lookup hk hchild]
      exact hn'
    · rw [heq, List.lookup_cons] at hn
      rw [List.lookup_cons]
      split at hn
      · obtain rfl | rfl := hleft
        · exact ⟨n, hn, rfl⟩
        · exact hinner p n hn
      · exact ⟨n, hn, rfl⟩

end

end Node

namespace FileSystem

variable {fs after : FileSystem} {path : Path} {place q : Place}

/-- A file system without all that lies in one directory. -/
def hollow (fs : FileSystem) (place : Place) : FileSystem :=
  fs.modify place fun node =>
    match node with
    | .leaf id => .leaf id
    | .dir folder _ => .dir folder []

/-- Nothing is left at a place or below it, and all else is as it was. -/
structure Removed (before after : FileSystem) (place : Place) : Prop where
  gone : ∀ q, place <+: q → after.item? q = none
  kept : ∀ q, ¬ place <+: q → after.item? q = before.item? q

/-- Nothing is left below a place, and all else is as it was. -/
structure Emptied (before after : FileSystem) (place : Place) : Prop where
  base : after.base = before.base
  gone : ∀ q, place.Below q → after.item? q = none
  kept : ∀ q, ¬ place.Below q → after.item? q = before.item? q

/-- Some of what lies below a place is gone, and all else is as it was. -/
structure Pruned (before after : FileSystem) (place : Place) : Prop where
  below : ∀ q, place.Below q → after.item? q = none ∨ after.item? q = before.item? q
  kept : ∀ q, ¬ place.Below q → after.item? q = before.item? q

theorem Emptied.pruned (h : Emptied fs after place) : Pruned fs after place :=
  ⟨fun q hq => .inl (h.gone q hq), h.kept⟩

theorem Emptied.item?_eq (h : Emptied fs after place) {item : Item}
    (hq : after.item? q = some item) : ¬ place.Below q ∧ fs.item? q = some item := by
  have hnot : ¬ place.Below q := fun hbelow => by
    rw [h.gone q hbelow] at hq
    cases hq
  exact ⟨hnot, by rw [← h.kept q hnot, hq]⟩

theorem Emptied.within (h : Emptied fs after place) : Within after fs :=
  within_of_item? h.base.symm fun q item hq => by rw [(h.item?_eq hq).2, Option.map_some]

theorem Emptied.within_of_emptied {other : FileSystem} (h : Emptied fs after place)
    (hother : Emptied fs other place) : Within after other := by
  refine within_of_item? (hother.base.trans h.base.symm) fun q item hq => ?_
  obtain ⟨hnot, hitem⟩ := h.item?_eq hq
  rw [hother.kept q hnot, hitem, Option.map_some]

theorem Emptied.within_of_nothing_below (h : Emptied fs after place)
    (hbelow : ∀ q, place.Below q → fs.item? q = none) : Within fs after := by
  refine within_of_item? h.base fun q item hq => ?_
  have hnot : ¬ place.Below q := fun hq' => by
    rw [hbelow q hq'] at hq
    cases hq
  rw [h.kept q hnot, hq, Option.map_some]

theorem removed_dropEntry (fs : FileSystem) (dir : Place) (n : FileName) :
    Removed fs (fs.dropEntry dir n) (dir ++ [n]) :=
  ⟨fun _ => item?_dropEntry_of_isPrefix fs, fun _ => item?_dropEntry_of_not_isPrefix fs⟩

theorem item?_below_of_empty {node : Node} (hnode : fs.node? place = some node)
    (hempty : node.entries = []) (q : Place) (hq : place.Below q) : fs.item? q = none := by
  obtain ⟨name, rest, rfl⟩ := hq
  simp [item?, hnode, Node.child?, hempty]

theorem emptied_modify {change : Node → Node} {node : Node} (hnode : fs.node? place = some node)
    (hitem : fs.itemOf (change node) = fs.itemOf node)
    (hempty : (change node).entries = []) :
    Emptied fs (fs.modify place change) place := by
  refine ⟨rfl, fun q hq => ?_, fun q hq => item?_modify_of_not_below hnode hitem hq⟩
  obtain ⟨name, rest, rfl⟩ := hq
  exact item?_below_of_empty (by rw [node?_modify_self, hnode]; rfl) hempty _ ⟨name, rest, rfl⟩

theorem emptied_hollow {node : Node} (hnode : fs.node? place = some node) :
    Emptied fs (fs.hollow place) place := by
  cases node with
  | leaf id => exact emptied_modify hnode rfl rfl
  | dir folder es => exact emptied_modify hnode rfl rfl

theorem pruned_purge (hnames : fs.HasDistinctNames) {folder : Folder}
    {es : List (FileName × Node)} (hnode : fs.node? place = some (.dir folder es)) :
    Pruned fs (fs.modify place fun _ => ((Node.dir folder es).purge fs.clock).1) place := by
  have hdistinct : (Node.dir folder es).Distinct := hnames.at? hnode
  have hleft := Node.itemOf_of_purge fs fs.clock _ hdistinct
  have hself : fs.itemOf ((Node.dir folder es).purge fs.clock).1 = fs.itemOf (.dir folder es) := by
    obtain ⟨n', hn', hsame⟩ := hleft [] _ rfl
    obtain rfl := Option.some.inj hn'
    exact hsame.symm
  refine ⟨fun q hq => ?_, fun q hq => item?_modify_of_not_below hnode hself hq⟩
  obtain ⟨name, rest, rfl⟩ := hq
  simp only [item?, node?_append, node?_modify_self, hnode, Option.map_some, Option.bind_some]
  cases hn : ((Node.dir folder es).purge fs.clock).1.at? (name :: rest) with
  | none => exact .inl rfl
  | some n =>
    obtain ⟨n', hn', hsame⟩ := hleft _ n hn
    exact .inr (by rw [hn']; exact congrArg some hsame.symm)

theorem removed_of_removeDirectory (h : fs.removeDirectory path = .ok after) :
    ∃ place folder, fs.locateEntry path = .ok place ∧
      fs.node? place = some (.dir folder []) ∧ Removed fs after place := by
  obtain ⟨b, n, folder, hb, hlast, hname, hnode, -, rfl⟩ := removeDirectory_eq_ok h
  exact ⟨b.dir ++ [n], folder, locateEntry_of_brink hb hlast hname hnode fun _ => rfl, hnode,
    removed_dropEntry fs b.dir n⟩

theorem removed_of_removeFile (h : fs.removeFile path = .ok after) :
    ∃ place id, fs.locateEntry path = .ok place ∧ fs.node? place = some (.leaf id) ∧
      Removed fs after place := by
  obtain ⟨b, n, id, hb, hlast, hname, hnode, hslash, -, rfl⟩ := removeFile_eq_ok h
  have hplace := locateEntry_of_brink hb hlast hname hnode fun hs => by simp [hslash] at hs
  exact ⟨b.dir ++ [n], id, hplace, hnode, removed_dropEntry fs b.dir n⟩

theorem removeDirectory_ne_missing (h : fs.locateEntry path = .ok place) :
    fs.removeDirectory path ≠ .error (.os .missing) := by
  obtain ⟨b, hb, hthere⟩ := exists_brink_of_locateEntry h
  intro hmissing
  unfold removeDirectory at hmissing
  rw [hb, ok_bind] at hmissing
  split at hmissing
  · cases hmissing
  · cases hmissing
  · cases hmissing
  · next n hlast =>
    -- The name stands for something, and the walk has seen the directory that holds it.
    obtain ⟨⟨node, hnode⟩, -⟩ := hthere n hlast
    have hmay := mayChange_of_brink hb (by simp [hlast])
    unfold checkName at hmissing
    rw [hnode] at hmissing
    split_ifs at hmissing
    · cases hmissing
    obtain hmay | hmay := hmay
    · rw [hmay] at hmissing
      simp only [ok_bind] at hmissing
      split at hmissing <;> cases hmissing
    · rw [hmay] at hmissing
      cases hmissing

theorem Removed.of_emptied {emptied : FileSystem} (h : Removed emptied after place)
    (hemptied : Emptied fs emptied place) : Removed fs after place :=
  ⟨h.gone, fun q hq => by rw [h.kept q hq, hemptied.kept q fun hbelow => hq hbelow.isPrefix]⟩

/-- What removing a directory with all below it comes to: all of it is gone, or all but the
directory, whose path leads through what was below it, or less and a failure. -/
theorem removeTree_cases (hnames : fs.HasDistinctNames) (h : fs.locateEntry path = .ok place)
    {folder : Folder} {es : List (FileName × Node)}
    (hnode : fs.node? place = some (.dir folder es)) :
    ((fs.removeTree path).failure = none ∧ (fs.hollow place).locateEntry path = .ok place ∧
        Removed fs (fs.removeTree path).files place) ∨
      ((fs.removeTree path).failure = none ∧ (fs.hollow place).locateEntry path ≠ .ok place ∧
        Emptied fs (fs.removeTree path).files place) ∨
      (fs.removeTree path).failure ≠ none ∧ Pruned fs (fs.removeTree path).files place := by
  have hpruned := pruned_purge hnames hnode
  have hhollow := emptied_hollow hnode
  unfold removeTree
  rw [h]
  dsimp only
  rw [hnode]
  dsimp only
  cases hpurge : (Node.dir folder es).purge fs.clock with
  | mk left failure =>
  rw [hpurge] at hpruned
  cases failure with
  | some errno => exact .inr (.inr ⟨by simp, hpruned⟩)
  | none =>
    obtain ⟨folder', es', touched, hdir, hleft, hmode⟩ :=
      Node.purge_eq_dir_nil (congrArg Prod.snd hpurge)
    rw [hpurge] at hleft
    obtain ⟨rfl, rfl⟩ := Node.dir.inj hdir
    dsimp only at hleft ⊢
    subst hleft
    have hemptied : Emptied fs (fs.modify place fun _ => .dir touched []) place :=
      emptied_modify hnode (congrArg Item.directory hmode) rfl
    -- The path is now walked again, through what the emptying has left of it.
    split
    · next after hafter =>
      obtain ⟨there, folder', hthere, -, hremoved⟩ := removed_of_removeDirectory hafter
      obtain rfl : there = place := by
        have hsame := (locateEntry_mono hemptied.within hthere).symm.trans h
        exact Except.ok.inj hsame
      exact .inl ⟨rfl, locateEntry_mono (hemptied.within_of_emptied hhollow) hthere,
        hremoved.of_emptied hemptied⟩
    · next errno herror =>
      by_cases hmissing : errno = .missing
      · refine .inr (.inl ⟨if_pos hmissing, fun hthere => ?_, hemptied⟩)
        have hstill := locateEntry_mono (hhollow.within_of_emptied hemptied) hthere
        exact removeDirectory_ne_missing hstill (hmissing ▸ herror)
      · exact .inr (.inr ⟨by simp [hmissing], hemptied.pruned⟩)
    · exact .inr (.inr ⟨by simp, hemptied.pruned⟩)

end FileSystem
end FileShell
