import FileShell.Proofs.Completions
import FileShell.Proofs.Respelling
import FileShell.Proofs.SearchExact
import FileShell.Proofs.TextOrder

namespace FileShell

namespace FileSystem

/-- A path leads to a directory, all links followed. It leads to none where a directory on the way may
not be searched, whatever lies there, or where the path is too long. -/
def LeadsToDirectory (fs : FileSystem) (path : Path) : Prop :=
  ∃ place folder es, fs.locate path = .ok place ∧ fs.node? place = some (.dir folder es)

theorem isDirectory_iff_leads {fs : FileSystem} {path : Path} :
    fs.isDirectory path = true ↔ fs.LeadsToDirectory path := by
  rw [isDirectory_iff, LeadsToDirectory]
  apply exists_congr
  intro place
  rw [exists_and_left, ← node?_eq_dir_iff]
  simp only [exists_and_left]

theorem list_join_nil (fs : FileSystem) {base : Path}
    (hshort : (base.join ⟨[]⟩).bytes.length ≤ pathLimit) : fs.list (base.join ⟨[]⟩) = fs.list base := by
  obtain ⟨hbytes, -⟩ | ⟨hbytes, hne⟩ := @Path.bytes_join ⟨[]⟩ rfl base
  · rw [List.append_nil] at hbytes
    rw [show base.join ⟨[]⟩ = base from congrArg Path.mk hbytes]
  · have hslash : (base.join ⟨[]⟩).endsInSlash = true := by
      rw [Path.endsInSlash, hbytes, List.getLast?_concat]
      exact beq_self_eq_true _
    cases hend : base.endsInSlash with
    | true =>
      have hsame : base.join ⟨[]⟩ = base := by
        unfold Path.join
        simp [hend, Path.isAbsolute]
      rw [hsame]
    | false =>
      have hrespells : Respells base (base.join ⟨[]⟩) := by
        refine ⟨(Path.isAbsolute_join_relative rfl base).symm, ?_, ?_, hne, ?_, ?_, hshort⟩
        · rw [Path.components_join rfl]
          exact (List.append_nil _).symm
        · simp [hbytes, Path.slash]
        · simp [hbytes]
        · rw [hbytes, List.length_append] at hshort
          omega
      exact hrespells.list_slashed hslash
        (Path.components_ne_nil_of_endsInSlash_eq_false hne hend) fs

end FileSystem

namespace Completer

open FileSystem

/-- A name goes on from what has been typed, and it is hidden only if that is. -/
structure GoesOn (typed name : Text) : Prop where
  isPrefix : typed <+: name
  hidden : name.head? = some '.' → typed.head? = some '.'

theorem offers_iff {typed name : Text} : offers typed name = true ↔ GoesOn typed name := by
  unfold offers isHidden
  rw [Bool.and_eq_true, List.isPrefixOf_iff_prefix]
  constructor
  · rintro ⟨hstarts, hhidden⟩
    refine ⟨hstarts, fun hname => ?_⟩
    simpa [hname] using hhidden
  · rintro ⟨hstarts, hhidden⟩
    refine ⟨hstarts, ?_⟩
    by_cases hname : name.head? = some '.'
    · simp [hhidden hname]
    · simp [hname]

/-- A candidate stands for a name in a directory: it is the name behind what was typed of the
directory, with a slash at its end if the name leads to a directory there, or else a blank. -/
structure StandsFor (fs : FileSystem) (dir : Path) (typedDir name : Text) (c : Candidate) : Prop where
  ofDirectory : fs.LeadsToDirectory (dir.join ⟨Utf8.encode name⟩) →
    c.display = name ++ ['/'] ∧ c.replacement = typedDir ++ name ++ ['/']
  ofOther : ¬ fs.LeadsToDirectory (dir.join ⟨Utf8.encode name⟩) →
    c.display = name ∧ c.replacement = typedDir ++ name ++ [' ']

section Listed

variable {completer : Completer} {fs other : FileSystem} {dir : Path} {typedDir typed name word : Text}
  {c d : Candidate} {entries : List (FileName × Node)}

theorem standsFor_iff : StandsFor fs dir typedDir name c ↔
    c = pathCandidate typedDir name (fs.isDirectory (dir.join ⟨Utf8.encode name⟩)) := by
  obtain ⟨display, replacement⟩ := c
  by_cases hleads : fs.LeadsToDirectory (dir.join ⟨Utf8.encode name⟩)
  · rw [isDirectory_iff_leads.2 hleads, pathCandidate, if_pos rfl, Candidate.mk.injEq]
    exact ⟨fun h => h.ofDirectory hleads, fun h => ⟨fun _ => h, fun hnot => absurd hleads hnot⟩⟩
  · have hother : fs.isDirectory (dir.join ⟨Utf8.encode name⟩) = false := by
      rw [← Bool.not_eq_true, isDirectory_iff_leads]
      exact hleads
    rw [hother, pathCandidate, if_neg Bool.false_ne_true, Candidate.mk.injEq]
    exact ⟨fun h => h.ofOther hleads, fun h => ⟨fun hdir => absurd hdir hleads, fun _ => h⟩⟩

theorem StandsFor.exists_replacement (h : StandsFor fs dir typedDir name c) :
    ∃ last, c.replacement = typedDir ++ name ++ [last] := by
  by_cases hleads : fs.LeadsToDirectory (dir.join ⟨Utf8.encode name⟩)
  · exact ⟨'/', (h.ofDirectory hleads).2⟩
  · exact ⟨' ', (h.ofOther hleads).2⟩

theorem StandsFor.name_eq {name' : Text} (h : StandsFor fs dir typedDir name c)
    (h' : StandsFor fs dir typedDir name' d) (hname : '/' ∉ name) (hname' : '/' ∉ name')
    (hdisplay : c.display = d.display) : name = name' := by
  have hcut {name : Text} {c : Candidate} (h : StandsFor fs dir typedDir name c) (hname : '/' ∉ name) :
      c.display.takeWhile (· ≠ '/') = name := by
    have hall : ∀ x ∈ name, decide (x ≠ '/') = true := by
      intro x hx
      apply decide_eq_true
      rintro rfl
      exact hname hx
    by_cases hleads : fs.LeadsToDirectory (dir.join ⟨Utf8.encode name⟩)
    · rw [(h.ofDirectory hleads).1, List.takeWhile_append_of_pos hall]
      simp
    · rw [(h.ofOther hleads).1, List.takeWhile_eq_self_iff.2 hall]
  rw [← hcut h hname, hdisplay, hcut h' hname']

theorem standsFor_of_made {entry : FileName}
    (h : (match Utf8.decode? entry with
      | some text =>
        if offers typed text then
          some (pathCandidate typedDir text (fs.isDirectory (dir.join ⟨entry⟩)))
        else none
      | none => none) = some c) :
    ∃ name, entry = Utf8.encode name ∧ StandsFor fs dir typedDir name c := by
  split at h
  · next name hspelled =>
    obtain rfl := Utf8.encode_of_decode? hspelled
    split_ifs at h
    exact ⟨name, rfl, standsFor_iff.2 (Option.some.inj h).symm⟩
  · cases h

theorem mem_pathCandidates_of_list
    (hlist : fs.list (completer.searched (splitAtSlash word).1) = .ok entries) :
    c ∈ completer.pathCandidates fs word ↔
      ∃ name node, (Utf8.encode name, node) ∈ entries ∧ GoesOn (splitAtSlash word).2 name ∧
        StandsFor fs (completer.searched (splitAtSlash word).1) (splitAtSlash word).1 name c := by
  rw [mem_pathCandidates_iff]
  constructor
  · rintro ⟨name, text, hoffers, ⟨entries', node, hlist', hmem⟩, hspelled, hmade⟩
    obtain rfl := Except.ok.inj (hlist.symm.trans hlist')
    obtain rfl := Utf8.encode_of_decode? hspelled
    exact ⟨text, node, hmem, offers_iff.1 hoffers, standsFor_iff.2 hmade⟩
  · rintro ⟨name, node, hmem, hgoes, hstands⟩
    exact ⟨Utf8.encode name, name, offers_iff.2 hgoes, ⟨entries, node, hlist, hmem⟩,
      Utf8.decode?_encode name, standsFor_iff.1 hstands⟩

theorem slash_notMem_of_listed (hfs : fs.WellFormed) (hlist : fs.list dir = .ok entries) {node : Node}
    (hmem : (Utf8.encode name, node) ∈ entries) : '/' ∉ name := by
  obtain ⟨place, folder, hopens⟩ := list_eq_ok_iff.1 hlist
  have hnode := node?_concat_of_mem hfs hopens.holds hmem
  have hproper : FileName.IsProper (Utf8.encode name) := hfs.isProper_of_node? hnode _ (by simp)
  exact fun hslash => hproper.noSlash (Path.slash_mem_encode.2 hslash)

theorem distinctIn_of_listed (hfs : fs.WellFormed) (hlist : fs.list dir = .ok entries) :
    Node.DistinctIn entries := by
  obtain ⟨place, folder, hopens⟩ := list_eq_ok_iff.1 hlist
  exact Node.Distinct.at? hfs.distinct hopens.holds

theorem pairwise_pathCandidates (hfs : fs.WellFormed) (completer : Completer) (word : Text) :
    (completer.pathCandidates fs word).Pairwise
      fun a b => Utf8.encode a.display < Utf8.encode b.display := by
  unfold pathCandidates
  dsimp only
  generalize completer.searched (splitAtSlash word).1 = dir
  cases hlist : fs.list dir with
  | error fault => exact List.Pairwise.nil
  | ok entries =>
    dsimp only
    apply Utf8.pairwise_mergeSort
    rw [List.pairwise_filterMap]
    have hnames := List.pairwise_map.1 (distinctIn_of_listed hfs hlist).nodup
    -- Candidates are displayed alike only if they are made from one name.
    refine hnames.imp_of_mem ?_
    rintro ⟨name, node⟩ ⟨name', node'⟩ hmem hmem' hne c hc c' hc' hdisplay
    obtain ⟨text, rfl, hstands⟩ := standsFor_of_made hc
    obtain ⟨text', rfl, hstands'⟩ := standsFor_of_made hc'
    have hslash : '/' ∉ text := slash_notMem_of_listed hfs hlist hmem
    have hslash' : '/' ∉ text' := slash_notMem_of_listed hfs hlist hmem'
    exact hne (congrArg Utf8.encode (hstands.name_eq hstands' hslash hslash' hdisplay))

theorem existsUnique_entry (hfs : fs.WellFormed)
    (hlist : fs.list (completer.searched (splitAtSlash word).1) = .ok entries)
    (hc : c ∈ completer.pathCandidates fs word) :
    ∃! e, e ∈ entries ∧ ∃ name, e.1 = Utf8.encode name ∧ GoesOn (splitAtSlash word).2 name ∧
      StandsFor fs (completer.searched (splitAtSlash word).1) (splitAtSlash word).1 name c := by
  obtain ⟨name, node, hmem, hgoes, hstands⟩ := (mem_pathCandidates_of_list hlist).1 hc
  refine ⟨(Utf8.encode name, node), ⟨hmem, name, rfl, hgoes, hstands⟩, ?_⟩
  rintro ⟨_, node'⟩ ⟨hmem', name', rfl, -, hstands'⟩
  have hslash : '/' ∉ name := slash_notMem_of_listed hfs hlist hmem
  have hslash' : '/' ∉ name' := slash_notMem_of_listed hfs hlist hmem'
  obtain rfl : name' = name := hstands'.name_eq hstands hslash' hslash rfl
  have hnode : node' = node := (distinctIn_of_listed hfs hlist).eq_of_mem hmem' hmem
  rw [hnode]

theorem existsUnique_candidate
    (hlist : fs.list (completer.searched (splitAtSlash word).1) = .ok entries) {node : Node}
    (hmem : (Utf8.encode name, node) ∈ entries) (hgoes : GoesOn (splitAtSlash word).2 name) :
    ∃! c, c ∈ completer.pathCandidates fs word ∧
      StandsFor fs (completer.searched (splitAtSlash word).1) (splitAtSlash word).1 name c := by
  have hstands := standsFor_iff.2 (Eq.refl (pathCandidate (splitAtSlash word).1 name
    (fs.isDirectory ((completer.searched (splitAtSlash word).1).join ⟨Utf8.encode name⟩))))
  refine ⟨_, ⟨(mem_pathCandidates_of_list hlist).2 ⟨name, node, hmem, hgoes, hstands⟩, hstands⟩, ?_⟩
  intro d hd
  exact standsFor_iff.1 hd.2

theorem isPrefix_replacement (hc : c ∈ completer.pathCandidates fs word) :
    word <+: c.replacement := by
  obtain ⟨dir, typed, hsplit, rfl, -, -⟩ := splitAtSlash_eq word
  cases hlist : fs.list (completer.searched (splitAtSlash (dir ++ typed)).1) with
  | error fault =>
    obtain ⟨-, -, -, ⟨entries, node, hlist', -⟩, -, -⟩ := mem_pathCandidates_iff.1 hc
    rw [hlist] at hlist'
    cases hlist'
  | ok entries =>
    obtain ⟨name, node, -, hgoes, hstands⟩ := (mem_pathCandidates_of_list hlist).1 hc
    obtain ⟨last, hreplacement⟩ := hstands.exists_replacement
    obtain ⟨more, hmore⟩ := hgoes.isPrefix
    rw [hsplit] at hmore hreplacement
    refine ⟨more ++ [last], ?_⟩
    rw [hreplacement, ← hmore]
    simp

theorem pathCandidates_eq_nil {fault : Fault}
    (hlist : fs.list (completer.searched (splitAtSlash word).1) = .error fault) :
    completer.pathCandidates fs word = [] := by
  unfold pathCandidates
  dsimp only
  rw [hlist]

section Alike

variable (hbase : other.base = fs.base) (hitem : ∀ q, other.item? q = fs.item? q)
include hbase hitem

theorem isDirectory_eq_of_item? (path : Path) : other.isDirectory path = fs.isDirectory path := by
  rw [Bool.eq_iff_iff, isDirectory_iff, isDirectory_iff, locate_eq_of_item? hbase hitem]
  simp only [sight?_eq, hitem]

theorem mem_pathCandidates_of_item? (hfs : fs.WellFormed)
    (hc : c ∈ completer.pathCandidates fs word) : c ∈ completer.pathCandidates other word := by
  obtain ⟨name, text, hoffers, ⟨entries, node, hlist, hmem⟩, hspelled, hmade⟩ :=
    mem_pathCandidates_iff.1 hc
  obtain ⟨entries', node', hlist', hmem', -⟩ := listed_of_item? hbase hitem hfs hlist hmem
  rw [← isDirectory_eq_of_item? hbase hitem] at hmade
  exact mem_pathCandidates_iff.2 ⟨name, text, hoffers, ⟨entries', node', hlist', hmem'⟩, hspelled, hmade⟩

theorem pathCandidates_eq_of_item? (hfs : fs.WellFormed) (hother : other.WellFormed)
    (completer : Completer) (word : Text) :
    completer.pathCandidates other word = completer.pathCandidates fs word := by
  have : Std.Irrefl fun a b : Candidate => Utf8.encode a.display < Utf8.encode b.display :=
    ⟨fun a => List.lt_irrefl (Utf8.encode a.display)⟩
  have : Std.Antisymm fun a b : Candidate => Utf8.encode a.display < Utf8.encode b.display :=
    ⟨fun _ _ hab hba => absurd hba (List.lt_asymm hab)⟩
  apply (pairwise_pathCandidates hother completer word).eq_of_mem_iff
    (pairwise_pathCandidates hfs completer word)
  intro c
  have hback (q : Place) : fs.item? q = other.item? q := (hitem q).symm
  exact ⟨mem_pathCandidates_of_item? hbase.symm hback hother, mem_pathCandidates_of_item? hbase hitem hfs⟩

end Alike
end Listed

/-- A word is completed by what lies in the directory that stands before its last slash, or in the one
that paths start from if there is no slash, and by nothing if that cannot be listed. Each entry of it
that has a UTF-8 name which goes on from the rest of the word has one candidate, and each candidate
stands for one such entry. The displays are in strict order, whatever the order of the entries, and
every replacement goes on from the word.

In a directory that may be listed but not searched nothing can be looked up, so that a directory there
is offered like a file. The one that paths start from is listed by its own path, and so also where there
is no room for a slash behind it. -/
theorem pathCandidates_exact (completer : Completer) {fs : FileSystem} (hfs : fs.WellFormed)
    (word : Text) :
    ∃ typedDir typed, word = typedDir ++ typed ∧ '/' ∉ typed ∧ (∀ c ∈ typedDir.getLast?, c = '/') ∧
      let named := completer.base.join (completer.home.expand typedDir)
      let dir := if typedDir = [] then completer.base else named
      let offered := completer.pathCandidates fs word
      (named.bytes.length ≤ pathLimit → fs.list named = fs.list dir) ∧
      (∀ fault, fs.list dir = .error fault → offered = []) ∧
      (∀ entries, fs.list dir = .ok entries →
        (∀ c ∈ offered, ∃! e, e ∈ entries ∧
          ∃ name, e.1 = Utf8.encode name ∧ GoesOn typed name ∧ StandsFor fs dir typedDir name c) ∧
        ∀ name node, (Utf8.encode name, node) ∈ entries → GoesOn typed name →
          ∃! c, c ∈ offered ∧ StandsFor fs dir typedDir name c) ∧
      (offered.Pairwise fun a b => Utf8.encode a.display < Utf8.encode b.display) ∧
      (∀ c ∈ offered, word <+: c.replacement) ∧
      ∀ other : FileSystem, other.WellFormed → other.base = fs.base →
        (∀ q, other.item? q = fs.item? q) → completer.pathCandidates other word = offered := by
  obtain ⟨typedDir, typed, hsplit, hword, hslash, hends⟩ := splitAtSlash_eq word
  refine ⟨typedDir, typed, hword, hslash, hends, ?_⟩
  intro named dir offered
  have hdir : completer.searched (splitAtSlash word).1 = dir := by
    rw [hsplit, searched]
    simp only [List.isEmpty_iff]
    rfl
  refine ⟨?_, fun fault hlist => ?_, fun entries hlist => ?_, pairwise_pathCandidates hfs completer word,
    fun c hc => isPrefix_replacement hc, fun other hother hbase hitem =>
      pathCandidates_eq_of_item? hbase hitem hfs hother completer word⟩
  · intro hshort
    by_cases hnil : typedDir = []
    · have hexpand : completer.home.expand [] = ⟨[]⟩ := Home.expand_eq_ofText (.inr ⟨nofun, nofun⟩)
      rw [show dir = completer.base from if_pos hnil]
      subst hnil
      dsimp only [named] at hshort ⊢
      rw [hexpand] at hshort ⊢
      exact list_join_nil fs hshort
    · rw [show dir = named from if_neg hnil]
  · rw [← hdir] at hlist
    exact pathCandidates_eq_nil hlist
  · rw [← hdir] at hlist ⊢
    have hentry (c : Candidate) (hc : c ∈ offered) := existsUnique_entry hfs hlist hc
    have hcandidate (name : Text) (node : Node) (hmem : (Utf8.encode name, node) ∈ entries)
        (hgoes : GoesOn (splitAtSlash word).2 name) := existsUnique_candidate hlist hmem hgoes
    rw [hsplit] at hentry hcandidate ⊢
    exact ⟨hentry, hcandidate⟩

/-- A link to a directory is completed as a directory. -/
theorem pathCandidates_of_link :
    let completer : Completer := ⟨[], .unknown, Path.ofString "/"⟩
    besideLink.WellFormed ∧ besideLink.LeadsToDirectory (Path.ofString "/l") ∧
      ⟨"l/".toList, "l/".toList⟩ ∈ completer.pathCandidates besideLink ['l'] := by
  intro completer
  have hfiles : besideLink.WellFormed :=
    .of_places ⟨rfl, trivial, rfl, trivial, trivial⟩ (by decide) (by decide)
  have hleads : besideLink.LeadsToDirectory (Path.ofString "/l") :=
    ⟨[[0x64]], ⟨0o755#12, 0⟩, [], rfl, rfl⟩
  refine ⟨hfiles, hleads, ?_⟩
  obtain ⟨typedDir, typed, hword, -, hends, -, -, hlisted, -⟩ :=
    pathCandidates_exact completer hfiles ['l']
  obtain rfl : typedDir = [] := by
    by_contra hne
    have hmem : '/' ∈ typedDir := by
      have hlast := List.getLast?_eq_some_getLast hne
      rw [← hends _ hlast]
      exact List.getLast_mem hne
    have hl : '/' ∈ ['l'] := hword ▸ List.mem_append_left typed hmem
    exact absurd hl (by decide)
  obtain rfl : ['l'] = typed := hword
  obtain ⟨-, hcandidate⟩ := hlisted _ rfl
  have hgoes : GoesOn ['l'] ['l'] := ⟨List.prefix_refl _, nofun⟩
  obtain ⟨⟨display, replacement⟩, ⟨hmem, hstands⟩, -⟩ :=
    hcandidate ['l'] (.leaf 0) (.tail _ (.head _)) hgoes
  obtain ⟨rfl, rfl⟩ := hstands.ofDirectory hleads
  exact hmem

end Completer
end FileShell
