import FileShell.FileSystem.Removal
import FileShell.Proofs.Changes

namespace FileShell

theorem lookup_cons_of_lookup {name k : FileName} {node child : Node}
    {es : List (FileName × Node)} (hk : es.lookup k = none) (h : es.lookup name = some child) :
    ((k, node) :: es).lookup name = some child := by
  have hne : name ≠ k := fun heq => by
    rw [heq, hk] at h
    cases h
  rw [List.lookup_cons, beq_false_of_ne hne]
  exact h

namespace Node

mutual

/-- In no directory of the tree do two entries have one name. -/
def Distinct : Node → Prop
  | leaf _ => True
  | dir _ es => DistinctIn es

def DistinctIn : List (FileName × Node) → Prop
  | [] => True
  | (name, node) :: rest => rest.lookup name = none ∧ node.Distinct ∧ DistinctIn rest

end

theorem distinct_leaf (id : LeafId) : (leaf id).Distinct := trivial

theorem DistinctIn.of_lookup {es : List (FileName × Node)} (h : DistinctIn es) {name : FileName}
    {child : Node} (hchild : es.lookup name = some child) : child.Distinct := by
  induction es with
  | nil => cases hchild
  | cons e es ih =>
    obtain ⟨k, node⟩ := e
    obtain ⟨-, hnode, hrest⟩ := h
    rw [List.lookup_cons] at hchild
    split at hchild
    · exact Option.some.inj hchild ▸ hnode
    · exact ih hrest hchild

theorem DistinctIn.lookup_of_mem {es : List (FileName × Node)} (h : DistinctIn es) {name : FileName}
    {child : Node} (hmem : (name, child) ∈ es) : es.lookup name = some child := by
  induction es with
  | nil => cases hmem
  | cons e es ih =>
    obtain ⟨k, node⟩ := e
    obtain ⟨hk, -, hrest⟩ := h
    obtain heq | hmem := List.mem_cons.1 hmem
    · obtain ⟨rfl, rfl⟩ := Prod.mk.inj heq
      exact List.lookup_cons_self
    · exact lookup_cons_of_lookup hk (ih hrest hmem)

theorem Distinct.at? {node inner : Node} (h : node.Distinct) {p : Place}
    (hp : node.at? p = some inner) : inner.Distinct := by
  induction p generalizing node with
  | nil => exact Option.some.inj hp ▸ h
  | cons name p ih =>
    rw [at?_cons] at hp
    obtain ⟨child, hchild, hp⟩ := Option.bind_eq_some_iff.1 hp
    refine ih ?_ hp
    cases node with
    | leaf id => cases hchild
    | dir folder es => exact DistinctIn.of_lookup h hchild

/-- One entry is either removed, and the removal goes on, or stops it and stays, emptied perhaps. -/
theorem purgeEntries_cons (now : Instant) (folder : Folder) (name : FileName) (node : Node)
    (rest : List (FileName × Node)) :
    purgeEntries now folder ((name, node) :: rest) = purgeEntries now folder rest ∨
      ∃ left errno, purgeEntries now folder ((name, node) :: rest) =
        ((name, left) :: rest, some errno) ∧ (left = node ∨ left = (node.purge now).1) := by
  cases node with
  | leaf id =>
    rw [purgeEntries]
    split
    · exact .inl rfl
    · exact .inr ⟨_, _, rfl, .inl rfl⟩
  | dir inner es =>
    rw [purgeEntries]
    split
    · split
      · next left errno hleft => exact .inr ⟨left, errno, rfl, .inr (by rw [hleft])⟩
      · next left hleft =>
        split
        · exact .inl rfl
        · exact .inr ⟨left, _, rfl, .inr (by rw [hleft])⟩
    · exact .inr ⟨_, _, rfl, .inl rfl⟩

theorem DistinctIn.map {f : FileName × Node → FileName × Node} {es : List (FileName × Node)}
    (hes : DistinctIn es) (hname : ∀ e, (f e).1 = e.1)
    (hnode : ∀ e, e.2.Distinct → (f e).2.Distinct) : DistinctIn (es.map f) := by
  induction es with
  | nil => trivial
  | cons e es ih =>
    obtain ⟨k, node⟩ := e
    obtain ⟨hk, hchild, hrest⟩ := hes
    have hf : f (k, node) = (k, (f (k, node)).2) := Prod.ext (hname _) rfl
    rw [List.map_cons, hf]
    refine ⟨?_, hnode _ hchild, ih hrest⟩
    rw [lookup_map_of_fst hname, hk]
    rfl

theorem DistinctIn.filter {es : List (FileName × Node)} (hes : DistinctIn es) (name : FileName) :
    DistinctIn (es.filter (·.1 ≠ name)) := by
  induction es with
  | nil => trivial
  | cons e es ih =>
    obtain ⟨k, node⟩ := e
    obtain ⟨hk, hchild, hrest⟩ := hes
    by_cases hname : k = name
    · rw [List.filter_cons_of_neg (by simpa using hname)]
      exact ih hrest
    · rw [List.filter_cons_of_pos (by simpa using hname)]
      refine ⟨?_, hchild, ih hrest⟩
      rw [lookup_filter_fst, hk, ite_self]

theorem DistinctIn.concat {es : List (FileName × Node)} (hes : DistinctIn es) {name : FileName}
    (hname : es.lookup name = none) {child : Node} (hchild : child.Distinct) :
    DistinctIn (es ++ [(name, child)]) := by
  induction es with
  | nil => exact ⟨rfl, hchild, trivial⟩
  | cons e es ih =>
    obtain ⟨k, node⟩ := e
    obtain ⟨hk, hnode, hrest⟩ := hes
    rw [List.lookup_cons] at hname
    split at hname
    · cases hname
    · next hne =>
      refine ⟨?_, hnode, ih hrest hname⟩
      have hne' : k ≠ name := fun heq => by simp [heq] at hne
      change (es ++ [(name, child)]).lookup k = none
      rw [List.lookup_append, hk, List.lookup_cons, beq_false_of_ne hne']
      rfl

theorem Distinct.modify {node : Node} {change : Node → Node} (h : node.Distinct)
    (hchange : ∀ n, n.Distinct → (change n).Distinct) (p : Place) :
    (node.modify change p).Distinct := by
  induction p generalizing node with
  | nil => exact hchange node h
  | cons name p ih =>
    cases node with
    | leaf id => trivial
    | dir folder es =>
      refine DistinctIn.map h (fun e => ?_) fun e he => ?_
      · split_ifs <;> rfl
      · split_ifs
        · exact ih he
        · exact he

theorem Distinct.put {node child : Node} (h : node.Distinct) (name : FileName)
    (hchild : child.Distinct) : (node.put name child).Distinct := by
  cases node with
  | leaf id => trivial
  | dir folder es =>
    rw [Node.put]
    split_ifs with hold
    · refine DistinctIn.map h (fun e => ?_) fun e he => ?_
      · split_ifs with hname
        · exact hname.symm
        · rfl
      · split_ifs
        · exact hchild
        · exact he
    · exact DistinctIn.concat h (Option.not_isSome_iff_eq_none.1 hold) hchild

theorem Distinct.drop {node : Node} (h : node.Distinct) (name : FileName) :
    (node.drop name).Distinct := by
  cases node with
  | leaf id => trivial
  | dir folder es => exact DistinctIn.filter h name

theorem Distinct.withFolder {node : Node} (h : node.Distinct) (change : Folder → Folder) :
    (node.withFolder change).Distinct := by
  cases node with
  | leaf id => trivial
  | dir folder es => exact h

mutual

theorem distinct_purge (now : Instant) : ∀ (node : Node), node.Distinct →
    (node.purge now).1.Distinct
  | leaf _, _ => trivial
  | dir folder es, hes => by
    rw [purge]
    split_ifs
    · exact distinct_purgeEntries now folder es hes
    · exact hes

theorem distinct_purgeEntries (now : Instant) (folder : Folder) :
    ∀ (es : List (FileName × Node)), DistinctIn es → DistinctIn (purgeEntries now folder es).1
  | [], _ => by simp [purgeEntries, DistinctIn]
  | (k, node) :: rest, ⟨hk, hnode, hrest⟩ => by
    have hinner := distinct_purge now node hnode
    have hafter := distinct_purgeEntries now folder rest hrest
    obtain heq | ⟨left, errno, heq, hleft⟩ := purgeEntries_cons now folder k node rest
    · rw [heq]
      exact hafter
    · rw [heq]
      obtain rfl | rfl := hleft
      · exact ⟨hk, hnode, hrest⟩
      · exact ⟨hk, hinner, hrest⟩

end

end Node

namespace FileSystem

variable {fs after : FileSystem} {path : Path}

def HasDistinctNames (fs : FileSystem) : Prop := fs.root.Distinct

namespace HasDistinctNames

theorem modify (h : fs.HasDistinctNames) (place : Place) {change : Node → Node}
    (hchange : ∀ n, n.Distinct → (change n).Distinct) : (fs.modify place change).HasDistinctNames :=
  Node.Distinct.modify h hchange place

theorem putEntry (h : fs.HasDistinctNames) (dir : Place) (name : FileName) {child : Node}
    (hchild : child.Distinct) : (fs.putEntry dir name child).HasDistinctNames :=
  h.modify dir fun _ hn => (hn.put name hchild).withFolder _

theorem dropEntry (h : fs.HasDistinctNames) (dir : Place) (name : FileName) :
    (fs.dropEntry dir name).HasDistinctNames :=
  h.modify dir fun _ hn => (hn.drop name).withFolder _

theorem setLeaf (h : fs.HasDistinctNames) (id : LeafId) (leaf : Leaf) :
    (fs.setLeaf id leaf).HasDistinctNames := h

theorem removeDirectory (h : fs.HasDistinctNames) (hok : fs.removeDirectory path = .ok after) :
    after.HasDistinctNames := by
  obtain ⟨b, n, -, -, -, -, -, -, rfl⟩ := removeDirectory_eq_ok hok
  exact h.dropEntry b.dir n

theorem setMode (h : fs.HasDistinctNames) (place : Place) (mode : Mode) :
    (fs.setMode place mode).HasDistinctNames := by
  unfold FileSystem.setMode
  split
  · exact h
  · exact h.modify place fun _ hn => hn.withFolder _
  · exact h

theorem removeTree (h : fs.HasDistinctNames) (path : Path) :
    (fs.removeTree path).files.HasDistinctNames := by
  unfold FileSystem.removeTree
  split
  · exact h
  · next place _ =>
    split
    · exact h
    · exact h
    · next node _ hnode =>
      have hleft := Node.distinct_purge fs.clock node (Node.Distinct.at? h hnode)
      have hemptied := h.modify place fun _ _ => hleft
      dsimp only
      split
      · exact hemptied
      · split
        · next after hafter => exact hemptied.removeDirectory hafter
        · exact hemptied
        · exact hemptied

end HasDistinctNames

end FileSystem
end FileShell
