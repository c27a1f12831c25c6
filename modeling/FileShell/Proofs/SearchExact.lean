import FileShell.Proofs.DirectoryListings
import FileShell.Proofs.FindingsOrder

namespace FileShell

namespace Node

theorem DistinctIn.eq_of_mem {es : List (FileName × Node)} (h : DistinctIn es) {name : FileName}
    {a b : Node} (ha : (name, a) ∈ es) (hb : (name, b) ∈ es) : a = b :=
  Option.some.inj ((h.lookup_of_mem ha).symm.trans (h.lookup_of_mem hb))

theorem mem_of_lookup {es : List (FileName × Node)} {name : FileName} {child : Node}
    (h : es.lookup name = some child) : (name, child) ∈ es := by
  obtain ⟨before, after, rfl, -⟩ := List.lookup_eq_some_iff.1 h
  exact List.mem_append_right before List.mem_cons_self

theorem DistinctIn.nodup {es : List (FileName × Node)} (h : DistinctIn es) :
    (es.map (·.1)).Nodup := by
  induction es with
  | nil => exact .nil
  | cons e es ih =>
    obtain ⟨k, node⟩ := e
    obtain ⟨hk, -, hrest⟩ := h
    refine List.nodup_cons.2 ⟨fun hmem => ?_, ih hrest⟩
    obtain ⟨e, he, hfst⟩ := List.mem_map.1 hmem
    have hlookup : es.lookup e.1 = some e.2 := hrest.lookup_of_mem he
    rw [hfst] at hlookup
    rw [hk] at hlookup
    cases hlookup

theorem findingsIn_fst (pattern : Text) (above : Mode) (path : Path) (es : List (FileName × Node)) :
    (findingsIn pattern above path es).map (·.1) = es.map (·.1) := by
  induction es with
  | nil => rfl
  | cons e es ih => rw [findingsIn, List.map_cons, List.map_cons, ih]

end Node

namespace FileSystem

/-- An entry that is reached by listing a directory and directories listed in it, never by a link. -/
inductive Reached (fs : FileSystem) : Path → Place → Node → Prop where
  | entry {path : Path} {es : List (FileName × Node)} {n : FileName} {node : Node}
      (hlist : fs.list path = .ok es) (hmem : (n, node) ∈ es) : Reached fs path [n] node
  | within {path : Path} {es inner : List (FileName × Node)} {n : FileName} {folder : Folder}
      {rest : Place} {node : Node} (hlist : fs.list path = .ok es)
      (hmem : (n, .dir folder inner) ∈ es) (h : Reached fs (path.join ⟨n⟩) rest node) :
      Reached fs path (n :: rest) node

/-- An entry is reached whose name contains the pattern. -/
def Hit (fs : FileSystem) (pattern : Text) (root : Path) (p : Place) : Prop :=
  ∃ n node, p.getLast? = some n ∧ fs.Reached root p node ∧ pattern <:+: Utf8.decode n

/-- A directory is reached that cannot be listed. -/
def Skipped (fs : FileSystem) (root : Path) (s : Place × Fault) : Prop :=
  (∃ folder es, fs.Reached root s.1 (.dir folder es)) ∧ fs.list (root.below s.1) = .error s.2

variable {fs : FileSystem} {pattern : Text} {path : Path} {place p : Place} {folder : Folder}
  {es : List (FileName × Node)} {n : FileName} {node : Node}

theorem Reached.exists_cons (h : fs.Reached path p node) : ∃ m rest, p = m :: rest := by
  cases h with
  | entry _ _ => exact ⟨_, _, rfl⟩
  | within _ _ _ => exact ⟨_, _, rfl⟩

theorem Reached.exists_mem (h : fs.Reached path p node) (hlist : fs.list path = .ok es) :
    ∃ e ∈ es, p.head? = some e.1 := by
  cases h with
  | entry hlist' hmem =>
    obtain rfl := Except.ok.inj (hlist'.symm.trans hlist)
    exact ⟨_, hmem, rfl⟩
  | within hlist' hmem _ =>
    obtain rfl := Except.ok.inj (hlist'.symm.trans hlist)
    exact ⟨_, hmem, rfl⟩

theorem reached_cons_iff (hes : Node.DistinctIn es) (hlist : fs.list path = .ok es)
    (hmem : (n, node) ∈ es) {rest : Place} {other : Node} :
    fs.Reached path (n :: rest) other ↔
      rest = [] ∧ other = node ∨ node.isDir = true ∧ fs.Reached (path.join ⟨n⟩) rest other := by
  constructor
  · intro h
    cases h with
    | entry hlist' hother =>
      obtain rfl := Except.ok.inj (hlist'.symm.trans hlist)
      exact .inl ⟨rfl, hes.eq_of_mem hother hmem⟩
    | within hlist' hdir h =>
      obtain rfl := Except.ok.inj (hlist'.symm.trans hlist)
      rw [hes.eq_of_mem hmem hdir]
      exact .inr ⟨rfl, h⟩
  · rintro (⟨rfl, rfl⟩ | ⟨hdir, h⟩)
    · exact .entry hlist hmem
    · cases node with
      | leaf id => cases hdir
      | dir folder inner => exact .within hlist hmem h

theorem hit_cons_iff (hes : Node.DistinctIn es) (hlist : fs.list path = .ok es)
    (hmem : (n, node) ∈ es) :
    p.head? = some n ∧ fs.Hit pattern path p ↔
      (p = [n] ∧ pattern <:+: Utf8.decode n) ∨
        node.isDir = true ∧ ∃ q, fs.Hit pattern (path.join ⟨n⟩) q ∧ n :: q = p := by
  constructor
  · rintro ⟨hhead, m, other, hlast, h, hname⟩
    obtain ⟨rest, rfl⟩ := List.head?_eq_some_iff.1 hhead
    obtain ⟨rfl, rfl⟩ | ⟨hdir, h⟩ := (reached_cons_iff hes hlist hmem).1 h
    · obtain rfl : n = m := by simpa using hlast
      exact .inl ⟨rfl, hname⟩
    · obtain ⟨k, rest, rfl⟩ := h.exists_cons
      exact .inr ⟨hdir, k :: rest, ⟨m, other, by simpa using hlast, h, hname⟩, rfl⟩
  · rintro (⟨rfl, hname⟩ | ⟨hdir, q, ⟨m, other, hlast, h, hname⟩, rfl⟩)
    · exact ⟨rfl, n, node, rfl, .entry hlist hmem, hname⟩
    · obtain ⟨k, rest, rfl⟩ := h.exists_cons
      refine ⟨rfl, m, other, by simpa using hlast, ?_, hname⟩
      exact (reached_cons_iff hes hlist hmem).2 (.inr ⟨hdir, h⟩)

theorem skipped_cons_iff (hes : Node.DistinctIn es) (hlist : fs.list path = .ok es)
    (hmem : (n, node) ∈ es) {s : Place × Fault} :
    s.1.head? = some n ∧ fs.Skipped path s ↔
      node.isDir = true ∧ ((s.1 = [n] ∧ fs.list (path.join ⟨n⟩) = .error s.2) ∨
        ∃ t, fs.Skipped (path.join ⟨n⟩) t ∧ (n :: t.1, t.2) = s) := by
  obtain ⟨p, fault⟩ := s
  constructor
  · rintro ⟨hhead, ⟨folder, inner, h⟩, hfault⟩
    obtain ⟨rest, rfl⟩ := List.head?_eq_some_iff.1 hhead
    obtain ⟨rfl, rfl⟩ | ⟨hdir, h⟩ := (reached_cons_iff hes hlist hmem).1 h
    · exact ⟨rfl, .inl ⟨rfl, hfault⟩⟩
    · exact ⟨hdir, .inr ⟨(rest, fault), ⟨⟨folder, inner, h⟩, hfault⟩, rfl⟩⟩
  · rintro ⟨hdir, ⟨rfl, hfault⟩ | ⟨t, ⟨⟨folder, inner, h⟩, hfault⟩, heq⟩⟩
    · cases node with
      | leaf id => cases hdir
      | dir folder inner => exact ⟨rfl, ⟨folder, inner, .entry hlist hmem⟩, hfault⟩
    · obtain ⟨rfl, rfl⟩ := Prod.mk.inj heq
      exact ⟨rfl, ⟨folder, inner, (reached_cons_iff hes hlist hmem).2 (.inr ⟨hdir, h⟩)⟩, hfault⟩

theorem not_reached_of_error {fault : Fault} (hlist : fs.list path = .error fault) :
    ¬ fs.Reached path p node := by
  intro h
  cases h with
  | entry hlist' _ => exact nomatch hlist.symm.trans hlist'
  | within hlist' _ _ => exact nomatch hlist.symm.trans hlist'

theorem enumerates_own (n : FileName) :
    Enumerates id (if pattern.occursIn (Utf8.decode n) then [[n]] else [])
      fun p : Place => p = [n] ∧ pattern <:+: Utf8.decode n := by
  split_ifs with h
  · have hname := (Text.occursIn_iff pattern _).1 h
    exact .singleton fun p => and_iff_left hname
  · exact .nil fun p hp => h ((Text.occursIn_iff pattern _).2 hp.2)

theorem tells_own (n : FileName) {skipped : List (Place × Fault)} {Skip : Place × Fault → Prop}
    (h : Enumerates Prod.fst skipped Skip) :
    (Findings.mk (if pattern.occursIn (Utf8.decode n) then [path.join ⟨n⟩] else [])
      (skipped.map fun s => (path.below s.1, s.2))).Tells path
        (fun p => p = [n] ∧ pattern <:+: Utf8.decode n) Skip :=
  ⟨_, skipped, enumerates_own n, h, by split_ifs <;> rfl⟩

theorem Opens.tells (hfs : fs.WellFormed) (h : fs.Opens path place folder es)
    (hparts : ∀ part ∈ Node.findingsIn pattern folder.mode path es,
      part.2.Tells path (fun p => p.head? = some part.1 ∧ fs.Hit pattern path p)
        (fun s => s.1.head? = some part.1 ∧ fs.Skipped path s)) :
    (Findings.inNameOrder (Node.findingsIn pattern folder.mode path es)).Tells path
      (fs.Hit pattern path) (fs.Skipped path) := by
  have hes : Node.DistinctIn es := Node.Distinct.at? hfs.distinct h.holds
  have hnames := Node.findingsIn_fst pattern folder.mode path es
  have hpart {m : FileName} (hm : ∃ e ∈ es, some m = some e.1) :
      ∃ part ∈ Node.findingsIn pattern folder.mode path es, some m = some part.1 := by
    obtain ⟨e, he, hm⟩ := hm
    have hmem : e.1 ∈ (Node.findingsIn pattern folder.mode path es).map (·.1) :=
      hnames ▸ List.mem_map_of_mem he
    obtain ⟨part, hpart, hfst⟩ := List.mem_map.1 hmem
    exact ⟨part, hpart, hfst ▸ hm⟩
  refine Findings.tells_inNameOrder (hnames ▸ hes.nodup) hparts ?_ ?_
  · rintro p ⟨n, node, -, hreached, -⟩
    obtain ⟨m, rest, rfl⟩ := hreached.exists_cons
    exact hpart (hreached.exists_mem h.list_eq)
  · rintro ⟨p, fault⟩ ⟨⟨inner, es', hreached⟩, -⟩
    obtain ⟨m, rest, rfl⟩ := hreached.exists_cons
    exact hpart (hreached.exists_mem h.list_eq)

mutual

/-- What a search tells of an entry is what it is to tell of it and of all below it. -/
theorem findings_tells (hfs : fs.WellFormed) (pattern : Text) : ∀ (node : Node) {path : Path}
    {place : Place} {folder : Folder} {es : List (FileName × Node)} {n : FileName},
    fs.Opens path place folder es → (n, node) ∈ es →
      (node.findings pattern folder.mode (path.join ⟨n⟩) n).Tells path
        (fun p => p.head? = some n ∧ fs.Hit pattern path p)
        (fun s => s.1.head? = some n ∧ fs.Skipped path s)
  | .leaf id, path, place, folder, es, n, h, hmem => by
    have hes : Node.DistinctIn es := Node.Distinct.at? hfs.distinct h.holds
    rw [Node.findings]
    refine (tells_own n (.nil fun s hs => hs)).congr (fun p => ?_) fun s => ?_
    · rw [hit_cons_iff hes h.list_eq hmem]
      simp [Node.isDir]
    · rw [skipped_cons_iff hes h.list_eq hmem]
      simp [Node.isDir]
  | .dir inner es', path, place, folder, es, n, h, hmem => by
    have hes : Node.DistinctIn es := Node.Distinct.at? hfs.distinct h.holds
    rw [Node.findings]
    split
    · next fault hfault =>
      have hlist := h.list_eq_error hfs hmem hfault
      -- Below a directory that cannot be listed nothing is reached.
      have hnone {p : Place} {node : Node} : ¬ fs.Reached (path.join ⟨n⟩) p node :=
        not_reached_of_error hlist
      have hown : Enumerates Prod.fst [([n], fault)] fun s => s = ([n], fault) :=
        .singleton fun s => Iff.rfl
      refine (tells_own n hown).congr (fun p => ?_) fun s => ?_
      · rw [hit_cons_iff hes h.list_eq hmem]
        simp [Hit, hnone]
      · rw [skipped_cons_iff hes h.list_eq hmem]
        simp [Skipped, hnone, hlist, Node.isDir, Prod.ext_iff, eq_comm]
    · next hnone =>
      have hinner := h.enter hfs hmem hnone
      have hbelow := hinner.tells hfs
        (findingsIn_tells hfs pattern es' hinner fun e he => he)
      refine (tells_own n (.nil fun s hs => hs)).append
        (hbelow.beneath (fun p => Iff.rfl) fun s => Iff.rfl) (fun p => ?_) (fun s => ?_) ?_ ?_
      · rw [hit_cons_iff hes h.list_eq hmem]
        simp [Node.isDir]
      · rw [skipped_cons_iff hes h.list_eq hmem, hinner.list_eq]
        simp [Node.isDir]
      · -- An entry comes before all that lies below it.
        rintro p q ⟨rfl, -⟩ ⟨q, ⟨m, other, -, hreached, -⟩, rfl⟩
        obtain ⟨k, rest, rfl⟩ := hreached.exists_cons
        exact List.cons_lt_cons_iff.2 (.inr ⟨rfl, List.nil_lt_cons k rest⟩)
      · rintro s t hs
        exact hs.elim

theorem findingsIn_tells (hfs : fs.WellFormed) (pattern : Text) :
    ∀ (rest : List (FileName × Node)) {path : Path} {place : Place} {folder : Folder}
    {es : List (FileName × Node)}, fs.Opens path place folder es → (∀ e ∈ rest, e ∈ es) →
      ∀ part ∈ Node.findingsIn pattern folder.mode path rest,
        part.2.Tells path (fun p => p.head? = some part.1 ∧ fs.Hit pattern path p)
          (fun s => s.1.head? = some part.1 ∧ fs.Skipped path s)
  | [], path, place, folder, es, h, hrest, part, hpart => by
    rw [Node.findingsIn] at hpart
    cases hpart
  | (n, node) :: rest, path, place, folder, es, h, hrest, part, hpart => by
    obtain ⟨hfirst, hrest⟩ := List.forall_mem_cons.1 hrest
    rw [Node.findingsIn] at hpart
    obtain rfl | hpart := List.mem_cons.1 hpart
    · exact findings_tells hfs pattern node h hfirst
    · exact findingsIn_tells hfs pattern rest h hrest part hpart

end

section Alike

variable {other : FileSystem} (hbase : other.base = fs.base)
  (hitem : ∀ q, other.item? q = fs.item? q)
include hbase hitem

theorem locate_eq_of_item? (path : Path) : other.locate path = fs.locate path :=
  locate_congr hbase (fun q => by rw [sight?_eq, sight?_eq, hitem]) path

theorem Opens.of_item? (h : fs.Opens path place folder es) :
    ∃ folder' es', other.Opens path place folder' es' := by
  have hplace : other.item? place = some (.directory folder.mode) := by
    rw [hitem, item?, h.holds]
    rfl
  obtain ⟨node', hnode', heq⟩ := Option.map_eq_some_iff.1 hplace
  cases node' with
  | leaf id => cases heq
  | dir folder' es' =>
    have hmode : folder'.mode = folder.mode := Item.directory.inj heq
    exact ⟨folder', es', (locate_eq_of_item? hbase hitem path).trans h.leads, hnode',
      hmode ▸ h.readable⟩

theorem list_eq_error_of_item? {fault : Fault} (h : fs.list path = .error fault) :
    other.list path = .error fault := by
  have hlocate := locate_eq_of_item? hbase hitem path
  unfold list at h ⊢
  rw [hlocate]
  cases hplace : fs.locate path with
  | error e => rwa [hplace] at h
  | ok place =>
    rw [hplace, ok_bind] at h
    rw [ok_bind]
    have hsame := hitem place
    unfold item? at hsame
    cases hnode : fs.node? place with
    | none =>
      rw [hnode, Option.map_none, Option.map_eq_none_iff] at hsame
      rw [hsame]
      rwa [hnode] at h
    | some node =>
      rw [hnode] at hsame h
      obtain ⟨node', hnode', heq⟩ := Option.map_eq_some_iff.1 hsame
      rw [hnode']
      cases node with
      | leaf id =>
        cases node' with
        | leaf id' => exact h
        | dir folder' es' => cases heq
      | dir folder es =>
        cases node' with
        | leaf id' => cases heq
        | dir folder' es' =>
          have hmode : folder'.mode = folder.mode := Item.directory.inj heq
          dsimp only at h ⊢
          rw [hmode]
          split_ifs at h ⊢
          exact h

theorem listed_of_item? (hfs : fs.WellFormed) {n : FileName} {node : Node}
    (hlist : fs.list path = .ok es) (hmem : (n, node) ∈ es) :
    ∃ es' node', other.list path = .ok es' ∧ (n, node') ∈ es' ∧
      other.itemOf node' = fs.itemOf node := by
  obtain ⟨place, folder, hopens⟩ := list_eq_ok_iff.1 hlist
  obtain ⟨folder', es', hopens'⟩ := hopens.of_item? hbase hitem
  have hthere : other.item? (place ++ [n]) = some (fs.itemOf node) := by
    rw [hitem, item?, node?_concat_of_mem hfs hopens.holds hmem]
    rfl
  obtain ⟨node', hnode', heq⟩ := Option.map_eq_some_iff.1 hthere
  rw [node?_append, hopens'.holds, Option.bind_some, Node.at?_cons] at hnode'
  obtain ⟨child, hchild, hnode'⟩ := Option.bind_eq_some_iff.1 hnode'
  obtain rfl := Option.some.inj hnode'
  exact ⟨es', child, hopens'.list_eq, Node.mem_of_lookup hchild, heq⟩

theorem Reached.of_item? (hfs : fs.WellFormed) (h : fs.Reached path p node) :
    ∃ node', other.Reached path p node' ∧ other.itemOf node' = fs.itemOf node := by
  -- The nodes differ in the order of their entries; the items that they are do not.
  induction h with
  | entry hlist hmem =>
    obtain ⟨es', node', hlist', hmem', heq⟩ := listed_of_item? hbase hitem hfs hlist hmem
    exact ⟨node', .entry hlist' hmem', heq⟩
  | within hlist hmem _ ih =>
    obtain ⟨es', node', hlist', hmem', heq⟩ := listed_of_item? hbase hitem hfs hlist hmem
    obtain ⟨last, hlast, hsame⟩ := ih
    cases node' with
    | leaf id => cases heq
    | dir folder' inner' => exact ⟨last, .within hlist' hmem' hlast, hsame⟩

theorem Hit.of_item? (hfs : fs.WellFormed) (h : fs.Hit pattern path p) :
    other.Hit pattern path p := by
  obtain ⟨n, node, hlast, hreached, hname⟩ := h
  obtain ⟨node', hreached', -⟩ := hreached.of_item? hbase hitem hfs
  exact ⟨n, node', hlast, hreached', hname⟩

theorem Skipped.of_item? (hfs : fs.WellFormed) {s : Place × Fault} (h : fs.Skipped path s) :
    other.Skipped path s := by
  obtain ⟨⟨folder, es, hreached⟩, hfault⟩ := h
  obtain ⟨node', hreached', heq⟩ := hreached.of_item? hbase hitem hfs
  cases node' with
  | leaf id => cases heq
  | dir folder' es' =>
    exact ⟨⟨folder', es', hreached'⟩, list_eq_error_of_item? hbase hitem hfault⟩

end Alike

theorem search_of_list (hfs : fs.WellFormed) {root : Path} (hlist : fs.list root = .ok es)
    (pattern : Text) :
    ∃ found, fs.search root pattern = .ok found ∧
      found.Tells root (fs.Hit pattern root) (fs.Skipped root) := by
  obtain ⟨place, folder, hopens⟩ := list_eq_ok_iff.1 hlist
  refine ⟨_, ?_, hopens.tells hfs (findingsIn_tells hfs pattern es hopens fun e he => he)⟩
  simp only [search, hlist, ok_bind, hopens.leads, folder?, hopens.holds]
  rfl

theorem search_of_list_error {root : Path} {fault : Fault} (hlist : fs.list root = .error fault)
    (pattern : Text) : fs.search root pattern = .error fault := by
  rw [search, hlist]
  rfl

/-- A search fails exactly if the directory it starts in cannot be listed. Otherwise its hits are the
entries reached whose names contain the pattern and what it has skipped are the directories reached
that cannot be listed, each once and in order; and the order in which a directory holds its entries
makes no difference. -/
theorem search_exact (fs : FileSystem) (hfs : fs.WellFormed) (root : Path) (pattern : Text) :
    (∀ fault, fs.search root pattern = .error fault ↔ fs.list root = .error fault) ∧
      (∀ found, fs.search root pattern = .ok found →
        found.Tells root (fs.Hit pattern root) (fs.Skipped root)) ∧
      ∀ other : FileSystem, other.WellFormed → other.base = fs.base →
        (∀ q, other.item? q = fs.item? q) → other.search root pattern = fs.search root pattern := by
  cases hlist : fs.list root with
  | error fault =>
    have hfault := search_of_list_error hlist pattern
    refine ⟨fun e => by simp [hfault], fun found hfound => ?_, fun other _ hbase hitem => ?_⟩
    · rw [hfault] at hfound
      cases hfound
    · rw [hfault]
      exact search_of_list_error (list_eq_error_of_item? hbase hitem hlist) pattern
  | ok es =>
    obtain ⟨found, hfound, htells⟩ := search_of_list hfs hlist pattern
    refine ⟨fun e => ?_, fun found' hfound' => ?_, fun other hother hbase hitem => ?_⟩
    · rw [hfound]
      exact iff_of_false nofun nofun
    · obtain rfl := Except.ok.inj (hfound.symm.trans hfound')
      exact htells
    · -- What is found is the one list of its kind, and its kind hangs on the items alone.
      obtain ⟨place, folder, hopens⟩ := list_eq_ok_iff.1 hlist
      obtain ⟨folder', es', hopens'⟩ := hopens.of_item? hbase hitem
      obtain ⟨found', hfound', htells'⟩ := search_of_list hother hopens'.list_eq pattern
      have hback (q : Place) : fs.item? q = other.item? q := (hitem q).symm
      rw [hfound, hfound']
      refine congrArg Except.ok (htells'.eq (htells.congr (fun p => ?_) fun s => ?_))
      · exact ⟨fun h => h.of_item? hbase hitem hfs, fun h => h.of_item? hbase.symm hback hother⟩
      · exact ⟨fun h => h.of_item? hbase hitem hfs, fun h => h.of_item? hbase.symm hback hother⟩

/-- A locked directory `b`, and a directory `a` with a file `ab` in it. -/
def besideLocked : FileSystem :=
  ⟨.dir ⟨0o755#12, 0⟩
      [([0x62], .dir ⟨0#12, 0⟩ []), ([0x61], .dir ⟨0o755#12, 0⟩ [([0x61, 0x62], .leaf 0)])],
    fun _ => ⟨.file [], 0o644#12, 0⟩, 0, []⟩

theorem search_exact_beside_locked :
    let root := Path.ofString "/"
    besideLocked.WellFormed ∧ besideLocked.Hit ['b'] root [[0x61], [0x61, 0x62]] ∧
      besideLocked.Skipped root ([[0x62]], .os .denied) ∧
      ∃ found, besideLocked.search root ['b'] = .ok found ∧
        found.Tells root (besideLocked.Hit ['b'] root) (besideLocked.Skipped root) := by
  have hfiles : besideLocked.WellFormed :=
    .of_places ⟨rfl, trivial, rfl, ⟨rfl, trivial, trivial⟩, trivial⟩ (by decide) (by decide)
  have hlist : besideLocked.list (Path.ofString "/") = .ok
      [([0x62], .dir ⟨0#12, 0⟩ []), ([0x61], .dir ⟨0o755#12, 0⟩ [([0x61, 0x62], .leaf 0)])] := rfl
  have hinner : besideLocked.list (Path.ofString "/a") = .ok [([0x61, 0x62], .leaf 0)] := rfl
  have hhit : besideLocked.Hit ['b'] (Path.ofString "/") [[0x61], [0x61, 0x62]] :=
    ⟨[0x61, 0x62], .leaf 0, rfl, .within hlist (.tail _ (.head _)) (.entry hinner (.head _)),
      ['a'], [], rfl⟩
  have hskipped : besideLocked.Skipped (Path.ofString "/") ([[0x62]], .os .denied) :=
    ⟨⟨⟨0#12, 0⟩, [], .entry hlist (.head _)⟩, rfl⟩
  obtain ⟨hfails, htells, -⟩ := search_exact besideLocked hfiles (Path.ofString "/") ['b']
  refine ⟨hfiles, hhit, hskipped, ?_⟩
  cases hfound : besideLocked.search (Path.ofString "/") ['b'] with
  | error fault =>
    have herror := (hfails fault).1 hfound
    rw [hlist] at herror
    cases herror
  | ok found => exact ⟨found, rfl, htells found hfound⟩

end FileSystem
end FileShell
