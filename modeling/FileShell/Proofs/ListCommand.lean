import FileShell.Proofs.ListingOrder
import FileShell.Proofs.ListingRows
import FileShell.Proofs.RunTranscript
import FileShell.Proofs.Utf8Ascii
import Mathlib.Data.List.TakeWhile

namespace FileShell

namespace FileSystem

variable {fs : FileSystem} {dir : Path} {es : List (FileName × Node)}

theorem status_of_list (hlist : fs.list dir = .ok es) :
    ∃ modified, fs.status dir = .ok ⟨.directory, modified⟩ := by
  obtain ⟨place, folder, hopens⟩ := list_eq_ok_iff.1 hlist
  refine ⟨folder.modified, ?_⟩
  rw [status, hopens.leads, ok_bind, statusAt, hopens.holds]
  rfl

end FileSystem

namespace Calendar

/-- The first and the last second of the years that can be written. -/
theorem isSupported_iff (time : Instant) : isSupported time = true ↔
    -8334601228800 ≤ secondsOf time ∧ secondsOf time ≤ 8210266876799 := by
  have hfirst := newYear_le_iff (-262143) (secondsOf time / 86400)
  have hlast := newYear_le_iff 262143 (secondsOf time / 86400)
  have hfirstDay : newYear (-262143) = -96465292 := rfl
  have hlastDay : newYear 262143 = 95026237 := rfl
  unfold isSupported
  rw [decide_eq_true_iff]
  omega

end Calendar

/-- An entry was changed in a year that cannot be written. -/
def Entry.OutOfYears (e : Entry) : Prop :=
  ∃ time, e.modified = some time ∧
    (Calendar.secondsOf time < -8334601228800 ∨ 8210266876799 < Calendar.secondsOf time)

theorem Entry.not_isWritable_iff {e : Entry} : ¬ e.isWritable ↔ e.OutOfYears := by
  unfold isWritable OutOfYears
  cases e.modified with
  | none => simp
  | some time =>
    simp only [Option.all_some, Calendar.isSupported_iff, Option.some.injEq, exists_eq_left']
    omega

namespace Command

open FileSystem

/-- The directory that `ls` is to list. -/
def listed (w : World) (args : List Text) : Path :=
  match args with
  | arg :: _ => w.session.resolve arg
  | [] => w.session.directory

theorem rows_eq (zone : Zone) (entries : List Entry) : rows zone entries =
    ((entries.takeWhile Entry.isWritable).flatMap (Entry.line zone),
      entries.all Entry.isWritable) := by
  induction entries with
  | nil => rfl
  | cons e entries ih =>
    rw [rows, Entry.row?_eq]
    cases h : e.isWritable with
    | true => simp [h, ih, Entry.line]
    | false => simp [h]

theorem runLs_eq (zone : Zone) (w : World) (args : List Text) : runLs zone w args =
    if !w.files.reaches (listed w args) then w.refuse (.pathNotFound (listed w args))
    else if !w.files.isDirectory (listed w args) then w.refuse (.notADirectory (listed w args))
    else
      match w.files.listing (listed w args) with
      | .error fault => w.refuse (.files (listed w args) fault)
      | .ok entries =>
        if (rows zone entries).2 then w.finish (rows zone entries).1
        else ⟨w, (rows zone entries).1, .crashed, []⟩ := rfl

variable {w : World} {args : List Text} {es : List (FileName × Node)}

theorem runLs_of_list (zone : Zone) (hlist : w.files.list (listed w args) = .ok es) :
    ∃ entries, w.files.listing (listed w args) = .ok entries ∧
      entries.Perm (w.files.childEntries (listed w args) es) ∧
      runLs zone w args =
        if entries.all Entry.isWritable then w.finish (entries.flatMap (Entry.line zone))
        else ⟨w, (entries.takeWhile Entry.isWritable).flatMap (Entry.line zone), .crashed, []⟩ := by
  obtain ⟨modified, hstatus⟩ := status_of_list hlist
  have hreaches : w.files.reaches (listed w args) = true := by
    rw [reaches, hstatus]
    rfl
  have hdirectory : w.files.isDirectory (listed w args) = true := by
    rw [isDirectory, hstatus]
  have hlisting := listing_of_list hlist
  refine ⟨_, hlisting, List.mergeSort_perm _ _, ?_⟩
  rw [runLs_eq, hreaches, hdirectory, hlisting]
  simp only [Bool.not_true, Bool.false_eq_true, if_false, rows_eq]
  split_ifs with hall
  · rw [List.takeWhile_eq_self_iff.2 (List.all_eq_true.1 hall)]
  · rfl

theorem runLs_of_list_error (zone : Zone) {fault : Fault}
    (hlist : w.files.list (listed w args) = .error fault) :
    ∃ failure, runLs zone w args = w.refuse failure := by
  rw [runLs_eq, listing_of_list_error hlist]
  split_ifs
  · exact ⟨_, rfl⟩
  · exact ⟨_, rfl⟩
  · exact ⟨_, rfl⟩

/-- A directory is listed whose children have times that can be written and names without a newline. -/
structure Printable (w : World) (args : List Text) (es : List (FileName × Node)) : Prop where
  wellFormed : w.files.WellFormed
  list : w.files.list (listed w args) = .ok es
  names : ∀ e ∈ es, LineSource.newline ∉ e.1
  times : ∀ e ∈ es, (w.files.childEntry (listed w args) e.1).isWritable

namespace Printable

variable {entries : List Entry}

theorem newline_notMem (h : Printable w args es)
    (hperm : entries.Perm (w.files.childEntries (listed w args) es)) :
    ∀ e ∈ entries, '\n' ∉ e.name := by
  intro e he
  obtain ⟨child, hchild, rfl⟩ := List.mem_map.1 (hperm.mem_iff.1 he)
  rw [name_childEntry h.wellFormed h.list hchild]
  exact fun hmem => h.names child hchild ((Utf8.mem_decode_iff (by decide) child.1).1 hmem)

theorem isWritable (h : Printable w args es)
    (hperm : entries.Perm (w.files.childEntries (listed w args) es)) :
    ∀ e ∈ entries, e.isWritable := by
  intro e he
  obtain ⟨child, hchild, rfl⟩ := List.mem_map.1 (hperm.mem_iff.1 he)
  exact h.times child hchild

theorem runLs_eq_finish (zone : Zone) (h : Printable w args es) :
    ∃ entries, w.files.listing (listed w args) = .ok entries ∧
      entries.Perm (w.files.childEntries (listed w args) es) ∧
      runLs zone w args = w.finish (entries.flatMap (Entry.line zone)) := by
  obtain ⟨entries, hlisting, hperm, hrun⟩ := runLs_of_list zone h.list
  rw [if_pos (List.all_eq_true.2 (h.isWritable hperm))] at hrun
  exact ⟨entries, hlisting, hperm, hrun⟩

end Printable

/-- A listing has a row for each child, and its bytes are those of another listing exactly if both tell
the same of their children, row by row. -/
theorem ls_tells_children (zone : Zone) (h : Printable w args es) :
    ∃ entries, w.files.listing (listed w args) = .ok entries ∧
      entries.Perm (w.files.childEntries (listed w args) es) ∧
      (∀ e ∈ es, (w.files.childEntry (listed w args) e.1).name = Utf8.decode e.1) ∧
      (∃ rows : List Text, entries.map (Entry.row? zone) = rows.map some ∧ (∀ row ∈ rows, '\n' ∉ row) ∧
        runLs zone w args = w.finish (rows.flatMap fun row => row ++ ['\n'])) ∧
      ∀ w' args' es' entries', Printable w' args' es' →
        w'.files.listing (listed w' args') = .ok entries' →
        (Utf8.encode (runLs zone w args).output = Utf8.encode (runLs zone w' args').output ↔
          entries.map Entry.facts = entries'.map Entry.facts) := by
  obtain ⟨entries, hlisting, hperm, hrun⟩ := h.runLs_eq_finish zone
  refine ⟨entries, hlisting, hperm, fun e => name_childEntry h.wellFormed h.list,
    ⟨entries.map fun e => e.row (e.stampOf zone), ?_, ?_, ?_⟩, ?_⟩
  · rw [List.map_map]
    refine List.map_congr_left fun e he => ?_
    rw [Entry.row?_eq, if_pos (h.isWritable hperm e he)]
    rfl
  · intro row hrow
    obtain ⟨e, he, rfl⟩ := List.mem_map.1 hrow
    exact Entry.newline_notMem_row (h.newline_notMem hperm e he)
  · rw [hrun, List.flatMap_map]
    rfl
  · intro w' args' es' entries' h' hlisting'
    obtain ⟨others, hothers, hperm', hrun'⟩ := h'.runLs_eq_finish zone
    obtain rfl := Except.ok.inj (hlisting'.symm.trans hothers)
    rw [hrun, hrun']
    constructor
    · intro hbytes
      exact Entry.facts_eq_of_lines (h.newline_notMem hperm) (h'.newline_notMem hperm')
        (Utf8.encode_injective hbytes)
    · intro hfacts
      exact congrArg Utf8.encode (Entry.lines_eq_of_facts hfacts)

/-- A shell in a directory with nothing but a file `a` of one byte, changed last at a given time. -/
def besideChanged (modified : Instant) : World :=
  ⟨⟨.dir ⟨0o755#12, 0⟩ [([0x61], .leaf 0)], fun _ => ⟨.file [0x78], 0o644#12, modified⟩, 0, []⟩,
    ⟨[], .unknown⟩, []⟩

theorem printable_besideChanged {modified : Instant} (h : Calendar.isSupported modified) :
    Printable (besideChanged modified) [] [([0x61], .leaf 0)] := by
  have hplaces {place : Place} (hplace : place ∈ (besideChanged modified).files.root.places) :
      place = [] ∨ place = [[0x61]] := List.mem_pair.1 hplace
  refine ⟨.of_places ⟨rfl, trivial, trivial⟩ (fun place hplace => ?_) fun place hplace => ?_, rfl,
    by decide, List.forall_mem_singleton.2 h⟩
  · obtain rfl | rfl := hplaces hplace <;> decide
  · obtain rfl | rfl := hplaces hplace <;> exact nofun

/-- One second before 1970 is told from the first of 1970. -/
theorem ls_tells_children_of_seconds :
    Printable (besideChanged 0) [] [([0x61], .leaf 0)] ∧
      Printable (besideChanged (-1)) [] [([0x61], .leaf 0)] ∧
      Utf8.encode (runLs .universal (besideChanged 0) []).output ≠
        Utf8.encode (runLs .universal (besideChanged (-1)) []).output := by
  have hfirst : Printable (besideChanged 0) [] [([0x61], .leaf 0)] :=
    printable_besideChanged (by decide)
  have hbefore : Printable (besideChanged (-1)) [] [([0x61], .leaf 0)] :=
    printable_besideChanged (by decide)
  obtain ⟨entries, -, hperm, -, -, hiff⟩ := ls_tells_children .universal hfirst
  obtain ⟨entries', hlisting', hperm', -⟩ := ls_tells_children .universal hbefore
  refine ⟨hfirst, hbefore, fun hbytes => ?_⟩
  have hfacts := (hiff _ _ _ entries' hbefore hlisting').1 hbytes
  rw [List.perm_singleton.1 hperm, List.perm_singleton.1 hperm'] at hfacts
  exact absurd hfacts (by decide)

/-- A child of the directory to be listed was changed in a year that cannot be written. -/
def OutOfYears (w : World) (args : List Text) : Prop :=
  ∃ es, w.files.list (listed w args) = .ok es ∧
    ∃ e ∈ w.files.childEntries (listed w args) es, e.OutOfYears

theorem outOfYears_iff_of_list (hlist : w.files.list (listed w args) = .ok es) {entries : List Entry}
    (hperm : entries.Perm (w.files.childEntries (listed w args) es)) :
    OutOfYears w args ↔ entries.all Entry.isWritable = false := by
  have hall : entries.all Entry.isWritable = false ↔ ∃ e ∈ entries, e.OutOfYears := by
    simp [← Entry.not_isWritable_iff]
  rw [hall]
  constructor
  · rintro ⟨es', hlist', e, he, hyears⟩
    obtain rfl := Except.ok.inj (hlist.symm.trans hlist')
    exact ⟨e, hperm.mem_iff.2 he, hyears⟩
  · rintro ⟨e, he, hyears⟩
    exact ⟨es, hlist, e, hperm.mem_iff.1 he, hyears⟩

@[simp] theorem runLs_world (zone : Zone) (w : World) (args : List Text) :
    (runLs zone w args).world = w := by
  cases hlist : w.files.list (listed w args) with
  | error fault =>
    obtain ⟨failure, hrun⟩ := runLs_of_list_error zone hlist
    rw [hrun]
    rfl
  | ok es =>
    obtain ⟨entries, -, -, hrun⟩ := runLs_of_list zone hlist
    rw [hrun]
    split_ifs <;> rfl

theorem runLs_verdict (zone : Zone) (w : World) (args : List Text) :
    (OutOfYears w args ∧ (runLs zone w args).verdict = .crashed) ∨
      (¬ OutOfYears w args ∧ ((runLs zone w args).verdict = .done .stay ∨
        ∃ failure, (runLs zone w args).verdict = .failed failure)) := by
  cases hlist : w.files.list (listed w args) with
  | error fault =>
    obtain ⟨failure, hrun⟩ := runLs_of_list_error zone hlist
    refine .inr ⟨?_, .inr ⟨failure, by rw [hrun]; rfl⟩⟩
    rintro ⟨es, hlist', -⟩
    rw [hlist] at hlist'
    cases hlist'
  | ok es =>
    obtain ⟨entries, -, hperm, hrun⟩ := runLs_of_list zone hlist
    rw [outOfYears_iff_of_list hlist hperm, hrun]
    cases entries.all Entry.isWritable with
    | true => exact .inr ⟨nofun, .inl rfl⟩
    | false => exact .inl ⟨rfl, rfl⟩

theorem runLs_crashes_iff (zone : Zone) (w : World) (args : List Text) :
    (runLs zone w args).verdict = .crashed ↔ OutOfYears w args := by
  obtain ⟨hyears, hcrash⟩ | ⟨hnot, hdone | ⟨failure, hfailed⟩⟩ := runLs_verdict zone w args
  · exact iff_of_true hcrash hyears
  · rw [hdone]
    exact iff_of_false nofun hnot
  · rw [hfailed]
    exact iff_of_false nofun hnot

/-- A row is refused, and a listing ends the program, exactly if there is a time outside the years that
can be written, whatever the zone; otherwise a listing is done or fails. -/
theorem ls_crashes_iff (s : Settings) (w : World) (args : List Text) :
    (∀ e : Entry, e.row? s.zone = none ↔ e.OutOfYears) ∧
      (runLs s.zone w args).world = w ∧
      ((OutOfYears w args ∧ (runLs s.zone w args).verdict = .crashed) ∨
        (¬ OutOfYears w args ∧ ((runLs s.zone w args).verdict = .done .stay ∨
          ∃ failure, (runLs s.zone w args).verdict = .failed failure))) ∧
      ∀ t, Text.words t = ls.name.toList :: args →
        (Shell.Crashes s w (.line t) ↔ OutOfYears w args) := by
  refine ⟨fun e => ?_, runLs_world s.zone w args, runLs_verdict s.zone w args, fun t ht => ?_⟩
  · rw [Entry.row?_eq, ← Entry.not_isWritable_iff]
    cases e.isWritable <;> simp
  · have heffect := Shell.effectOf?_of_words_cons ht s w
    rw [← runLs_crashes_iff s.zone, Shell.Crashes, heffect]
    constructor
    · rintro ⟨name, e, he, hcrash⟩
      obtain ⟨-, rfl⟩ := Prod.mk.inj (Option.some.inj he)
      exact hcrash
    · exact fun hcrash => ⟨_, _, rfl, hcrash⟩

/-- A file that was changed in the first second of the year 262143 cannot be listed. -/
theorem ls_crashes_on_late_file :
    let w := besideChanged (8210266876800 * 1000000000)
    (w.files.childEntry (listed w []) [0x61]).row? .universal = none ∧
      (runLs .universal w []).verdict = .crashed := by
  intro w
  have hlist : w.files.list (listed w []) = .ok [([0x61], .leaf 0)] := rfl
  obtain ⟨entries, -, hperm, hrun⟩ := runLs_of_list .universal hlist
  rw [List.perm_singleton.1 hperm] at hrun
  exact ⟨rfl, congrArg Effect.verdict hrun⟩

end Command
end FileShell
