import FileShell.Listing
import FileShell.Proofs.SearchExact
import FileShell.Proofs.TextOrder

namespace FileShell

namespace Entry

def precedes (a b : Entry) : Bool := Utf8.precedes a.name b.name

def InNameOrder (l : List Entry) : Prop := l.Pairwise fun a b => a.precedes b = true

instance (l : List Entry) : Decidable (InNameOrder l) :=
  inferInstanceAs (Decidable (l.Pairwise fun a b => a.precedes b = true))

/-- The entries of a name, in their order. -/
def named (t : Text) (l : List Entry) : List Entry := l.filter (·.name = t)

variable {l m : List Entry} {e : Entry}

theorem precedes_trans (a b c : Entry) (hab : a.precedes b = true) (hbc : b.precedes c = true) :
    a.precedes c = true := Utf8.precedes_trans hab hbc

theorem precedes_total (a b : Entry) : (a.precedes b || b.precedes a) = true :=
  Utf8.precedes_total a.name b.name

theorem precedes_of_name_eq {a b : Entry} (h : a.name = b.name) : a.precedes b = true := by
  rw [precedes, h]
  exact decide_eq_true (List.le_refl _)

theorem mem_named {t : Text} : e ∈ named t l ↔ e ∈ l ∧ e.name = t := by
  simp [named]

theorem named_named (t : Text) (l : List Entry) : named t (named t l) = named t l :=
  List.filter_eq_self.2 fun _ he => decide_eq_true (mem_named.1 he).2

theorem inNameOrder_mergeSort (l : List Entry) : InNameOrder (l.mergeSort precedes) :=
  List.pairwise_mergeSort precedes_trans precedes_total l

theorem named_mergeSort (t : Text) (l : List Entry) : named t (l.mergeSort precedes) = named t l := by
  have hsorted : InNameOrder (named t l) := by
    apply List.pairwise_of_forall_mem_list
    intro a ha b hb
    apply precedes_of_name_eq
    rw [(mem_named.1 ha).2, (mem_named.1 hb).2]
  have hkept : (named t l).Sublist (l.mergeSort precedes) :=
    List.sublist_mergeSort precedes_trans precedes_total hsorted List.filter_sublist
  have hnamed : (named t (named t l)).Sublist (named t (l.mergeSort precedes)) := hkept.filter _
  rw [named_named] at hnamed
  have hperm := (List.mergeSort_perm l precedes).filter (·.name = t)
  exact (hnamed.eq_of_length hperm.length_eq.symm).symm

theorem mem_iff_of_named (h : ∀ t, named t l = named t m) (e : Entry) : e ∈ l ↔ e ∈ m := by
  have hname := h e.name
  have hl : e ∈ l ↔ e ∈ named e.name l := by simp [mem_named]
  rw [hl, hname]
  simp [mem_named]

theorem InNameOrder.head_precedes {a : Entry} (h : InNameOrder (a :: l)) (he : e ∈ a :: l) :
    a.precedes e = true := by
  obtain rfl | he := List.mem_cons.1 he
  · exact precedes_of_name_eq rfl
  · exact (List.pairwise_cons.1 h).1 e he

/-- Entries in the order of their names are determined by those of each name. -/
theorem eq_of_named (hl : InNameOrder l) (hm : InNameOrder m) (h : ∀ t, named t l = named t m) :
    l = m := by
  induction l generalizing m with
  | nil =>
    symm
    apply List.eq_nil_iff_forall_not_mem.2
    intro e he
    exact List.not_mem_nil ((mem_iff_of_named h e).2 he)
  | cons a l ih =>
    have hmem := mem_iff_of_named h
    cases m with
    | nil => exact absurd ((hmem a).1 List.mem_cons_self) List.not_mem_nil
    | cons b m =>
      have hname : a.name = b.name :=
        Utf8.precedes_antisymm (hl.head_precedes ((hmem b).2 List.mem_cons_self))
          (hm.head_precedes ((hmem a).1 List.mem_cons_self))
      have hsame := h a.name
      rw [named, named, List.filter_cons_of_pos (by simp),
        List.filter_cons_of_pos (by simp [hname])] at hsame
      obtain rfl := (List.cons.inj hsame).1
      have hrest (t : Text) : named t l = named t m := by
        have ht := h t
        unfold named at ht ⊢
        rw [List.filter_cons, List.filter_cons] at ht
        split_ifs at ht
        · exact (List.cons.inj ht).2
        · exact ht
      rw [ih (List.pairwise_cons.1 hl).2 (List.pairwise_cons.1 hm).2 hrest]

end Entry

theorem Path.fileName_join_name {n : FileName} (hn : n.IsProper) (path : Path) :
    (path.join ⟨n⟩).fileName = some n := by
  have hfilter : [Component.name n].filter (· ≠ .here) = [.name n] := rfl
  rw [fileName, components_join_name hn.toIsPiece, List.filter_append, hfilter, List.getLast?_concat]

theorem Entry.name_ofStatus (name : Text) (status : Status) : (ofStatus name status).name = name := by
  unfold ofStatus
  split <;> rfl

theorem Entry.name_ofPath (fs : FileSystem) (path : Path) :
    (ofPath fs path).name = Utf8.decode (path.fileName.getD []) := by
  unfold ofPath
  dsimp only
  split
  · exact name_ofStatus _ _
  · split
    · exact name_ofStatus _ _
    · rfl

namespace FileSystem

/-- What a listing has for one child of a directory. -/
def childEntry (fs : FileSystem) (dir : Path) (n : FileName) : Entry := Entry.ofPath fs (dir.join ⟨n⟩)

def childEntries (fs : FileSystem) (dir : Path) (es : List (FileName × Node)) : List Entry :=
  es.map fun e => fs.childEntry dir e.1

variable {fs : FileSystem} {dir : Path} {es : List (FileName × Node)}

theorem name_childEntry (hfs : fs.WellFormed) (hlist : fs.list dir = .ok es)
    {e : FileName × Node} (he : e ∈ es) : (fs.childEntry dir e.1).name = Utf8.decode e.1 := by
  obtain ⟨place, folder, hopens⟩ := list_eq_ok_iff.1 hlist
  have hnode := node?_concat_of_mem hfs hopens.holds he
  have hn : e.1.IsProper := hfs.isProper_of_node? hnode e.1 (by simp)
  rw [childEntry, Entry.name_ofPath, Path.fileName_join_name hn, Option.getD_some]

theorem listing_of_list (hlist : fs.list dir = .ok es) :
    fs.listing dir =
      .ok ((fs.childEntries dir es).mergeSort Entry.precedes) := by
  rw [listing, hlist]
  rfl

theorem listing_of_list_error {fault : Fault} (hlist : fs.list dir = .error fault) :
    fs.listing dir = .error fault := by
  rw [listing, hlist]
  rfl

theorem nodup_of_list (hfs : fs.WellFormed) (hlist : fs.list dir = .ok es) :
    (es.map (·.1)).Nodup := by
  obtain ⟨place, folder, hopens⟩ := list_eq_ok_iff.1 hlist
  have hdistinct : Node.DistinctIn es := Node.Distinct.at? hfs.distinct hopens.holds
  exact hdistinct.nodup

/-- Directories are the same but for the order in which they hold their entries. -/
structure Reordered (fs other : FileSystem) : Prop where
  base : other.base = fs.base
  items : ∀ q, other.item? q = fs.item? q
  statuses : ∀ q, other.statusAt q = fs.statusAt q

namespace Reordered

variable {other : FileSystem}

theorem symm (h : fs.Reordered other) : other.Reordered fs :=
  ⟨h.base.symm, fun q => (h.items q).symm, fun q => (h.statuses q).symm⟩

theorem childEntries_eq (h : fs.Reordered other) (dir : Path) (es : List (FileName × Node)) :
    other.childEntries dir es = fs.childEntries dir es := by
  have hsight (q : Place) : other.sight? q = fs.sight? q := by
    rw [sight?_eq, sight?_eq, h.items]
  have hstatus (path : Path) : other.status path = fs.status path := by
    rw [status, status, locate_congr h.base hsight, funext h.statuses]
  have hentry (path : Path) : other.entryStatus path = fs.entryStatus path := by
    rw [entryStatus, entryStatus, locateEntry_congr h.base hsight, funext h.statuses]
  refine List.map_congr_left fun e _ => ?_
  simp only [childEntry, Entry.ofPath, hstatus, hentry]

theorem mem_names_of_mem (hfs : fs.WellFormed) (h : fs.Reordered other) {es' : List (FileName × Node)}
    (hlist : fs.list dir = .ok es) (hlist' : other.list dir = .ok es') {n : FileName}
    (hn : n ∈ es.map (·.1)) : n ∈ es'.map (·.1) := by
  obtain ⟨e, he, rfl⟩ := List.mem_map.1 hn
  obtain ⟨es'', node', hlist'', hmem, -⟩ := listed_of_item? h.base h.items hfs hlist he
  obtain rfl := Except.ok.inj (hlist''.symm.trans hlist')
  exact List.mem_map.2 ⟨_, hmem, rfl⟩

theorem list_perm (hfs : fs.WellFormed) (hother : other.WellFormed) (h : fs.Reordered other)
    (hlist : fs.list dir = .ok es) :
    ∃ es', other.list dir = .ok es' ∧ (es'.map (·.1)).Perm (es.map (·.1)) := by
  obtain ⟨place, folder, hopens⟩ := list_eq_ok_iff.1 hlist
  obtain ⟨folder', es', hopens'⟩ := hopens.of_item? h.base h.items
  have hlist' := hopens'.list_eq
  have hnodup := nodup_of_list hfs hlist
  have hnodup' := nodup_of_list hother hlist'
  refine ⟨es', hlist', (List.perm_ext_iff_of_nodup hnodup' hnodup).2 fun n => ?_⟩
  exact ⟨h.symm.mem_names_of_mem hother hlist' hlist, h.mem_names_of_mem hfs hlist hlist'⟩

end Reordered

/-- Two lists have the children that are shown under one name in the same order. -/
def SameTies (fs : FileSystem) (dir : Path) (es es' : List (FileName × Node)) : Prop :=
  ∀ t, Entry.named t (fs.childEntries dir es) = Entry.named t (fs.childEntries dir es')

theorem eq_listing_iff (hlist : fs.list dir = .ok es) (l : List Entry) :
    fs.listing dir = .ok l ↔
      Entry.InNameOrder l ∧ ∀ t, Entry.named t l = Entry.named t (fs.childEntries dir es) := by
  rw [listing_of_list hlist]
  constructor
  · intro h
    obtain rfl := Except.ok.inj h
    exact ⟨Entry.inNameOrder_mergeSort _, fun t => Entry.named_mergeSort t _⟩
  · rintro ⟨horder, hnamed⟩
    apply congrArg Except.ok
    apply Entry.eq_of_named (Entry.inNameOrder_mergeSort _) horder
    intro t
    rw [Entry.named_mergeSort, hnamed]

theorem listing_reordered_iff {other : FileSystem} (h : fs.Reordered other)
    {es' : List (FileName × Node)} (hlist : fs.list dir = .ok es) (hlist' : other.list dir = .ok es') :
    other.listing dir = fs.listing dir ↔ fs.SameTies dir es' es := by
  rw [listing_of_list hlist, eq_listing_iff hlist', h.childEntries_eq]
  simp only [Entry.inNameOrder_mergeSort, Entry.named_mergeSort, true_and]
  exact ⟨fun hties t => (hties t).symm, fun hties t => (hties t).symm⟩

theorem search_children (hfs : fs.WellFormed) (hlist : fs.list dir = .ok es)
    {raw : List (FileName × Node)} (hperm : raw.Perm es) (hraw : raw.Pairwise fun a b => a.1 < b.1) :
    ∃ found, fs.search dir [] = .ok found ∧
      (raw.map fun e => dir.join ⟨e.1⟩).Sublist found.hits := by
  obtain ⟨found, hfound, hits, skipped, hhits, -, rfl⟩ := search_of_list hfs hlist []
  refine ⟨_, hfound, ?_⟩
  have hsorted : (raw.map fun e => [e.1]).Pairwise fun p q : Place => p < q :=
    List.pairwise_map.2 (hraw.imp fun hlt => List.cons_lt_cons_iff.2 (.inl hlt))
  have hsubset : (raw.map fun e => [e.1]) ⊆ hits := by
    intro p hp
    obtain ⟨e, he, rfl⟩ := List.mem_map.1 hp
    refine (hhits.mem _).2 ⟨e.1, e.2, rfl, .entry hlist (hperm.mem_iff.1 he), ?_⟩
    exact ⟨[], Utf8.decode e.1, rfl⟩
  have : Std.Antisymm fun p q : Place => p < q := ⟨fun _ _ hpq hqp => absurd hqp (List.lt_asymm hpq)⟩
  have hsublist : (raw.map fun e => [e.1]).Sublist hits :=
    List.sublist_of_subperm_of_pairwise (List.subperm_of_subset hsorted.nodup hsubset) hsorted
      hhits.sorted
  have hpaths := hsublist.map dir.below
  rw [List.map_map] at hpaths
  exact hpaths

theorem inNameOrder_childEntries_iff (hfs : fs.WellFormed) (hlist : fs.list dir = .ok es)
    {raw : List (FileName × Node)} (hperm : raw.Perm es) :
    Entry.InNameOrder (fs.childEntries dir raw) ↔
      raw.Pairwise fun a b => Utf8.precedes (Utf8.decode a.1) (Utf8.decode b.1) = true := by
  rw [Entry.InNameOrder, childEntries, List.pairwise_map]
  refine List.Pairwise.iff_of_mem fun {a b} ha hb => ?_
  rw [Entry.precedes, name_childEntry hfs hlist (hperm.mem_iff.1 ha),
    name_childEntry hfs hlist (hperm.mem_iff.1 hb)]

/-- Where all names are texts there are no ties. -/
theorem listing_of_texts (hfs : fs.WellFormed) (hlist : fs.list dir = .ok es)
    (htexts : ∀ e ∈ es, ∃ t, e.1 = Utf8.encode t) {l : List Entry}
    (hperm : l.Perm (fs.childEntries dir es)) (horder : Entry.InNameOrder l) :
    fs.listing dir = .ok l := by
  rw [listing_of_list hlist]
  apply congrArg Except.ok
  refine List.Perm.eq_of_pairwise ?_ (Entry.inNameOrder_mergeSort _) horder
    ((List.mergeSort_perm _ _).trans hperm.symm)
  intro a b ha hb hab hba
  have hname : a.name = b.name := Utf8.precedes_antisymm hab hba
  obtain ⟨e, he, rfl⟩ := List.mem_map.1 (List.mem_mergeSort.1 ha)
  obtain ⟨e', he', rfl⟩ := List.mem_map.1 (hperm.mem_iff.1 hb)
  rw [name_childEntry hfs hlist he, name_childEntry hfs hlist he'] at hname
  obtain ⟨t, ht⟩ := htexts e he
  obtain ⟨t', ht'⟩ := htexts e' he'
  rw [ht, ht', Utf8.decode_encode, Utf8.decode_encode] at hname
  rw [ht, ht', hname]

/-- A listing shows the children in the order of their names, as a search comes to them, exactly if
the names as shown are in that order too and ties are held in it; and it is the same however the
directory holds its children exactly if the order of ties is. Both hold if all names are texts. -/
theorem listing_order (hfs : fs.WellFormed) (hlist : fs.list dir = .ok es) :
    ∃ raw : List (FileName × Node), raw.Perm es ∧ (raw.Pairwise fun a b => a.1 < b.1) ∧
      (∃ found, fs.search dir [] = .ok found ∧
        (raw.map fun e => dir.join ⟨e.1⟩).Sublist found.hits) ∧
      (∃ entries, fs.listing dir = .ok entries ∧ entries.Perm (fs.childEntries dir es)) ∧
      (fs.listing dir = .ok (fs.childEntries dir raw) ↔
        (raw.Pairwise fun a b => Utf8.precedes (Utf8.decode a.1) (Utf8.decode b.1) = true) ∧
          fs.SameTies dir raw es) ∧
      (∀ other, other.WellFormed → fs.Reordered other → ∃ es', other.list dir = .ok es' ∧
        (other.listing dir = fs.listing dir ↔ fs.SameTies dir es' es)) ∧
      ((∀ e ∈ es, ∃ t, e.1 = Utf8.encode t) →
        fs.listing dir = .ok (fs.childEntries dir raw) ∧
          ∀ other, other.WellFormed → fs.Reordered other → other.listing dir = fs.listing dir) := by
  have hperm := List.mergeSort_perm es fun a b => decide (a.1 ≤ b.1)
  have hraw := Findings.pairwise_mergeSort (nodup_of_list hfs hlist)
  refine ⟨_, hperm, hraw, search_children hfs hlist hperm hraw,
    ⟨_, listing_of_list hlist, List.mergeSort_perm _ _⟩, ?_, fun other hother h => ?_,
    fun htexts => ⟨?_, fun other hother h => ?_⟩⟩
  · rw [eq_listing_iff hlist, inNameOrder_childEntries_iff hfs hlist hperm]
    rfl
  · obtain ⟨es', hlist', -⟩ := h.list_perm hfs hother hlist
    exact ⟨es', hlist', listing_reordered_iff h hlist hlist'⟩
  · refine listing_of_texts hfs hlist htexts (hperm.map _) ?_
    refine (inNameOrder_childEntries_iff hfs hlist hperm).2 (hraw.imp_of_mem fun ha hb hlt => ?_)
    obtain ⟨t, ht⟩ := htexts _ (hperm.mem_iff.1 ha)
    obtain ⟨t', ht'⟩ := htexts _ (hperm.mem_iff.1 hb)
    rw [ht, ht'] at hlt ⊢
    rw [Utf8.decode_encode, Utf8.decode_encode]
    exact decide_eq_true (List.le_of_lt hlt)
  · obtain ⟨es', hlist', hnames⟩ := h.list_perm hfs hother hlist
    rw [listing_of_list hlist', h.childEntries_eq]
    refine (listing_of_texts hfs hlist htexts ?_ (Entry.inNameOrder_mergeSort _)).symm
    have hchildren := hnames.map (fs.childEntry dir)
    rw [List.map_map, List.map_map] at hchildren
    exact (List.mergeSort_perm _ _).trans hchildren

/-- A directory with such entries, in which the number of a leaf is its size. -/
def holding (es : List (FileName × Node)) : FileSystem :=
  ⟨.dir ⟨0o755#12, 0⟩ es, fun id => ⟨.file (List.replicate id 0x78), 0o644#12, 0⟩, 0, []⟩

theorem reordered_holding {es es' : List (FileName × Node)} (hes : Node.DistinctIn es)
    (hes' : Node.DistinctIn es') (hperm : es.Perm es') : (holding es).Reordered (holding es') := by
  have hlookup (n : FileName) : es'.lookup n = es.lookup n := by
    ext node
    constructor
    · intro h
      exact hes.lookup_of_mem (hperm.mem_iff.2 (Node.mem_of_lookup h))
    · intro h
      exact hes'.lookup_of_mem (hperm.mem_iff.1 (Node.mem_of_lookup h))
  have hnode (n : FileName) (rest : Place) :
      (holding es').node? (n :: rest) = (holding es).node? (n :: rest) :=
    congrArg (fun child : Option Node => child.bind (·.at? rest)) (hlookup n)
  refine ⟨rfl, fun q => ?_, fun q => ?_⟩
  · cases q with
    | nil => rfl
    | cons n rest => exact congrArg (Option.map (holding es).itemOf) (hnode n rest)
  · cases q with
    | nil => rfl
    | cons n rest =>
      rw [statusAt, statusAt, hnode]
      rfl

/-- Two files, the names of which are no texts and shown alike. -/
def tied : List (FileName × Node) := [([0xFE], .leaf 0), ([0xFF], .leaf 1)]

theorem reordered_tied : (holding tied).Reordered (holding tied.reverse) :=
  reordered_holding ⟨rfl, trivial, rfl, trivial, trivial⟩ ⟨rfl, trivial, rfl, trivial, trivial⟩
    tied.reverse_perm.symm

theorem listing_order_of_tied :
    (holding tied).WellFormed ∧ (holding tied).list (Path.ofString "/") = .ok tied ∧
      (holding tied.reverse).WellFormed ∧ (holding tied).Reordered (holding tied.reverse) ∧
      (holding tied.reverse).listing (Path.ofString "/") ≠
        (holding tied).listing (Path.ofString "/") := by
  have hfs : (holding tied).WellFormed :=
    .of_places ⟨rfl, trivial, rfl, trivial, trivial⟩ (by decide) (by decide)
  have hother : (holding tied.reverse).WellFormed :=
    .of_places ⟨rfl, trivial, rfl, trivial, trivial⟩ (by decide) (by decide)
  have hlist : (holding tied).list (Path.ofString "/") = .ok tied := rfl
  obtain ⟨raw, -, -, -, -, -, hreordered, -⟩ := listing_order hfs hlist
  obtain ⟨es', hlist', hiff⟩ := hreordered _ hother reordered_tied
  obtain rfl : tied.reverse = es' := Except.ok.inj hlist'
  refine ⟨hfs, hlist, hother, reordered_tied, fun hsame => ?_⟩
  exact absurd (hiff.1 hsame ['\uFFFD']) (by decide)

/-- `FF` is shown as U+FFFD, which comes before U+1F600, though the byte comes behind its bytes. -/
def disordered : List (FileName × Node) := [([0xFF], .leaf 0), ([0xF0, 0x9F, 0x98, 0x80], .leaf 1)]

/-- A listing hangs on the order in which the directory holds its children, and its own order is not
that of a search. -/
theorem listing_not_in_search_order :
    let root := Path.ofString "/"
    let a : Entry := ⟨['\uFFFD'], .file, 0, some 0⟩
    let b : Entry := ⟨['\uFFFD'], .file, 1, some 0⟩
    ((holding tied).Reordered (holding tied.reverse) ∧
      (holding tied).listing root = .ok [a, b] ∧
      (holding tied.reverse).listing root = .ok [b, a]) ∧
    (holding disordered).listing root = .ok [a, ⟨[Char.ofNat 0x1F600], .file, 1, some 0⟩] ∧
    ∃ found, (holding disordered).search root [] = .ok found ∧
      [root.join ⟨[0xF0, 0x9F, 0x98, 0x80]⟩, root.join ⟨[0xFF]⟩].Sublist found.hits := by
  intro root a b
  have hfs : (holding disordered).WellFormed :=
    .of_places ⟨rfl, trivial, rfl, trivial, trivial⟩ (by decide) (by decide)
  have hlist (es : List (FileName × Node)) : (holding es).list root = .ok es := rfl
  have hincreasing : disordered.reverse.Pairwise fun a b => a.1 < b.1 := by decide
  refine ⟨⟨reordered_tied, ?_, ?_⟩, ?_, ?_⟩
  · exact (eq_listing_iff (hlist tied) [a, b]).2 ⟨by decide, fun t => rfl⟩
  · exact (eq_listing_iff (hlist tied.reverse) [b, a]).2 ⟨by decide, fun t => rfl⟩
  · exact (eq_listing_iff (hlist disordered) _).2 ⟨by decide, fun t => rfl⟩
  · exact search_children hfs (hlist disordered) disordered.reverse_perm hincreasing

end FileSystem
end FileShell
