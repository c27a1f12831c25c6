import FileShell.Proofs.Tree
import FileShell.Proofs.Walks

namespace FileShell

/-- What stands at a place: a directory, or one entry of a leaf with the number that tells whether
others share it. -/
inductive Item where
  | directory (mode : Mode)
  | leaf (id : LeafId) (body : Body) (mode : Mode)
deriving DecidableEq, Repr

namespace Item

def sight : Item → Sight
  | directory mode => .directory mode.searchable
  | leaf _ (.link target) _ => .link target
  | leaf _ _ _ => .other

/-- An item once the leaf of one number has been set. -/
def withLeaf (id : LeafId) (new : Leaf) : Item → Item
  | directory mode => directory mode
  | leaf i body mode => if i = id then leaf i new.body new.mode else leaf i body mode

end Item

/-- What lies in a directory, at whatever depth. -/
def Place.Below (place q : Place) : Prop := ∃ name rest, q = place ++ name :: rest

theorem Place.below_or_eq_of_prefix {place q : Place} (h : place <+: q) :
    q = place ∨ place.Below q := by
  obtain ⟨rest, rfl⟩ := h
  cases rest with
  | nil => exact .inl (List.append_nil place)
  | cons name rest => exact .inr ⟨name, rest, rfl⟩

theorem Place.Below.isPrefix {place q : Place} (h : place.Below q) : place <+: q := by
  obtain ⟨name, rest, rfl⟩ := h
  exact List.prefix_append _ _

namespace FileSystem

def itemOf (fs : FileSystem) : Node → Item
  | .dir folder _ => .directory folder.mode
  | .leaf id => .leaf id (fs.leaves id).body (fs.leaves id).mode

def item? (fs : FileSystem) (place : Place) : Option Item := (fs.node? place).map fs.itemOf

theorem item?_eq_none_iff {fs : FileSystem} {place : Place} :
    fs.item? place = none ↔ fs.node? place = none := by
  simp [item?]

theorem item?_eq_leaf_iff {fs : FileSystem} {place : Place} {id : LeafId} {body : Body}
    {mode : Mode} :
    fs.item? place = some (.leaf id body mode) ↔
      fs.node? place = some (.leaf id) ∧ (fs.leaves id).body = body ∧
        (fs.leaves id).mode = mode := by
  unfold item?
  cases fs.node? place with
  | none => simp
  | some node =>
    cases node with
    | leaf i =>
      simp only [Option.map_some, itemOf, Option.some.injEq, Item.leaf.injEq, Node.leaf.injEq]
      exact ⟨fun ⟨h, hb, hm⟩ => ⟨h, h ▸ hb, h ▸ hm⟩, fun ⟨h, hb, hm⟩ => ⟨h, h ▸ hb, h ▸ hm⟩⟩
    | dir folder es => simp [itemOf]

theorem sight?_eq (fs : FileSystem) (place : Place) :
    fs.sight? place = (fs.item? place).map Item.sight := by
  rw [sight?, item?, Option.map_map]
  congr 1
  funext node
  cases node with
  | leaf id => cases h : (fs.leaves id).body <;> simp [sightOf, itemOf, Item.sight, h]
  | dir folder es => rfl

/-- What is added to a file system, and what is written to its files, hinders no walk. -/
theorem within_of_item? {fs larger : FileSystem} (hbase : larger.base = fs.base)
    (hitem : ∀ place item, fs.item? place = some item →
      (larger.item? place).map Item.sight = some item.sight) : Within fs larger := by
  refine ⟨hbase, fun place sight hsight => ?_⟩
  rw [sight?_eq, Option.map_eq_some_iff] at hsight
  obtain ⟨item, hplace, rfl⟩ := hsight
  rw [sight?_eq, hitem place item hplace]

@[simp] theorem node?_modify_self (fs : FileSystem) (place : Place) (change : Node → Node) :
    (fs.modify place change).node? place = (fs.node? place).map change :=
  Node.at?_modify_self change place fs.root

@[simp] theorem node?_append (fs : FileSystem) (p q : Place) :
    fs.node? (p ++ q) = (fs.node? p).bind (·.at? q) := Node.at?_append fs.root p q

@[simp] theorem itemOf_modify (fs : FileSystem) (place : Place) (change : Node → Node) :
    (fs.modify place change).itemOf = fs.itemOf := by
  funext node
  cases node <;> rfl

theorem itemOf_modify_cons (fs : FileSystem) (change : Node → Node) (name : FileName)
    (rest : Place) (node : Node) :
    fs.itemOf (node.modify change (name :: rest)) = fs.itemOf node := by
  cases node <;> rfl

theorem item?_modify_of_not_isPrefix (fs : FileSystem) {place q : Place} (h : ¬ place <+: q)
    (change : Node → Node) : (fs.modify place change).item? q = fs.item? q := by
  by_cases hq : q <+: place
  · obtain ⟨rest, rfl⟩ := hq
    cases rest with
    | nil => exact absurd (by simp) h
    | cons name rest =>
      have habove := Node.at?_modify_of_append change q (name :: rest) fs.root
      unfold item? node? modify
      dsimp only
      rw [habove, Option.map_map]
      congr 1
      funext node
      exact itemOf_modify_cons fs change name rest node
  · have hbeside := Node.at?_modify_of_not_isPrefix change h hq fs.root
    unfold item? node? modify
    dsimp only
    rw [hbeside]
    rfl

theorem item?_modify_of_not_below {fs : FileSystem} {place q : Place} {change : Node → Node}
    {node : Node} (hnode : fs.node? place = some node)
    (hitem : fs.itemOf (change node) = fs.itemOf node) (hq : ¬ place.Below q) :
    (fs.modify place change).item? q = fs.item? q := by
  by_cases hprefix : place <+: q
  · obtain rfl | hbelow := Place.below_or_eq_of_prefix hprefix
    · rw [item?, item?, node?_modify_self, hnode]
      exact congrArg some hitem
    · exact absurd hbelow hq
  · exact item?_modify_of_not_isPrefix fs hprefix _

theorem item?_dropEntry_of_isPrefix (fs : FileSystem) {dir q : Place} {name : FileName}
    (h : dir ++ [name] <+: q) : (fs.dropEntry dir name).item? q = none := by
  obtain ⟨rest, rfl⟩ := h
  cases hnode : fs.node? dir with
  | none => simp [item?, dropEntry, hnode]
  | some node => simp [item?, dropEntry, hnode]

theorem item?_dropEntry_of_not_isPrefix (fs : FileSystem) {dir q : Place} {name : FileName}
    (h : ¬ dir ++ [name] <+: q) : (fs.dropEntry dir name).item? q = fs.item? q := by
  by_cases hdir : dir <+: q
  · obtain ⟨rest, rfl⟩ := hdir
    unfold item?
    rw [dropEntry, node?_append, node?_append, node?_modify_self]
    cases fs.node? dir with
    | none => rfl
    | some node =>
      cases rest with
      | nil => cases node <;> rfl
      | cons m rest =>
        have hm : m ≠ name := fun hm => h (by rw [hm]; exact ⟨rest, by simp⟩)
        simp [hm]
  · exact item?_modify_of_not_isPrefix fs hdir _

@[simp] theorem node?_putEntry_self {fs : FileSystem} {dir : Place} {folder : Folder}
    {es : List (FileName × Node)} (hdir : fs.node? dir = some (.dir folder es)) (name : FileName)
    (child : Node) : (fs.putEntry dir name child).node? (dir ++ [name]) = some child := by
  simp [putEntry, hdir]

theorem item?_putEntry_of_not_isPrefix {fs : FileSystem} {dir q : Place} {folder : Folder}
    {es : List (FileName × Node)} (hdir : fs.node? dir = some (.dir folder es)) {name : FileName}
    (h : ¬ dir ++ [name] <+: q) (child : Node) :
    (fs.putEntry dir name child).item? q = fs.item? q := by
  by_cases hq : dir <+: q
  · obtain ⟨rest, rfl⟩ := hq
    cases rest with
    | nil =>
      simp only [item?, putEntry, node?_append, node?_modify_self, hdir, Option.map_some, Node.put]
      split_ifs <;> rfl
    | cons m rest =>
      have hm : m ≠ name := fun hm => h (by rw [hm]; exact ⟨rest, by simp⟩)
      simp [item?, putEntry, hdir, hm]
  · exact item?_modify_of_not_isPrefix fs hq _

@[simp] theorem item?_setLeaf (fs : FileSystem) (id : LeafId) (leaf : Leaf) (q : Place) :
    (fs.setLeaf id leaf).item? q = (fs.item? q).map (Item.withLeaf id leaf) := by
  rw [item?, item?, Option.map_map]
  congr 1
  funext node
  cases node with
  | leaf i =>
    by_cases hi : i = id
    · subst hi
      simp [setLeaf, itemOf, Item.withLeaf]
    · simp [setLeaf, itemOf, Item.withLeaf, hi]
  | dir folder es => rfl

@[simp] theorem setLeaf_setLeaf (fs : FileSystem) (id : LeafId) (leaf new : Leaf) :
    (fs.setLeaf id leaf).setLeaf id new = fs.setLeaf id new := by
  simp only [setLeaf, FileSystem.mk.injEq, true_and, and_true]
  funext i
  split_ifs <;> rfl

@[simp] theorem leaves_setLeaf_self (fs : FileSystem) (id : LeafId) (leaf : Leaf) :
    (fs.setLeaf id leaf).leaves id = leaf := if_pos rfl

theorem item?_ne_fresh (fs : FileSystem) (q : Place) (body : Body) (mode : Mode) :
    fs.item? q ≠ some (.leaf fs.root.fresh body mode) := by
  intro h
  have hlt := Node.lt_fresh_of_at? fs.root q fs.root.fresh (item?_eq_leaf_iff.1 h).1
  exact Nat.lt_irrefl _ hlt

/-- A file system with one more leaf. -/
def putLeaf (fs : FileSystem) (dir : Place) (name : FileName) (leaf : Leaf) : FileSystem :=
  (fs.putEntry dir name (.leaf fs.root.fresh)).setLeaf fs.root.fresh leaf

@[simp] theorem item?_putLeaf_self {fs : FileSystem} {dir : Place} {folder : Folder}
    {es : List (FileName × Node)} (hdir : fs.node? dir = some (.dir folder es)) (name : FileName)
    (leaf : Leaf) :
    (fs.putLeaf dir name leaf).item? (dir ++ [name]) =
      some (.leaf fs.root.fresh leaf.body leaf.mode) :=
  item?_eq_leaf_iff.2 ⟨node?_putEntry_self hdir name _, by simp [putLeaf], by simp [putLeaf]⟩

theorem item?_putLeaf_of_item? {fs : FileSystem} {dir q : Place} {folder : Folder}
    {es : List (FileName × Node)} (hdir : fs.node? dir = some (.dir folder es)) {name : FileName}
    (hnone : fs.node? (dir ++ [name]) = none) {item : Item} (hq : fs.item? q = some item)
    (leaf : Leaf) : (fs.putLeaf dir name leaf).item? q = some item := by
  have hnot : ¬ dir ++ [name] <+: q := by
    rintro ⟨rest, rfl⟩
    rw [item?, node?_append, hnone] at hq
    cases hq
  rw [putLeaf, item?_setLeaf, item?_putEntry_of_not_isPrefix hdir hnot, hq, Option.map_some]
  cases item with
  | directory mode => rfl
  | leaf i body mode =>
    have hne : i ≠ fs.root.fresh := fun heq => item?_ne_fresh fs q body mode (heq ▸ hq)
    simp [Item.withLeaf, hne]

end FileSystem
end FileShell
