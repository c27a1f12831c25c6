import FileShell.Proofs.RepeatedCopy

namespace FileShell

namespace FileSystem

variable {fs : FileSystem} {source target path : Path} {mode : Mode} {fault : Fault}

/-- A path leads to a regular file that its owner may read. -/
def ReadsFile (fs : FileSystem) (path : Path) : Prop :=
  ∃ id content mode, fs.itemAt? path = some (.leaf id (.file content) mode) ∧ mode.readable = true

theorem openForReading_iff : (∃ id, fs.openForReading path = .ok id) ↔ fs.ReadsFile path := by
  constructor
  · rintro ⟨id, h⟩
    obtain ⟨place, content, hplace, hnode, hbody, hreadable⟩ := openForReading_eq_ok h
    exact ⟨id, content, _, itemAt?_eq_some_iff.2 ⟨place, hplace, item?_eq_leaf_iff.2 ⟨hnode, hbody, rfl⟩⟩,
      hreadable⟩
  · rintro ⟨id, content, mode, hitem, hreadable⟩
    obtain ⟨place, hplace, hthere⟩ := itemAt?_eq_some_iff.1 hitem
    exact ⟨id, openForReading_of_leaf hplace hthere hreadable⟩

theorem bind_eq_error_of {α β : Type} {x : Except Fault α} {f g : α → Except Fault β}
    (h : x >>= f = .error fault) (hfg : ∀ a, f a = .error fault → g a = .error fault) :
    x >>= g = .error fault := by
  cases x with
  | error other => exact h
  | ok a => exact hfg a h

theorem openForWriting_eq_error (h : fs.openForWriting path mode = .error fault) (other : Mode) :
    fs.openForWriting path other = .error fault := by
  refine bind_eq_error_of h fun _ h => bind_eq_error_of h fun b h => ?_
  dsimp only at h ⊢
  split at h
  · next n hlast =>
    split_ifs at h ⊢
    · exact h
    refine bind_eq_error_of h fun _ h => ?_
    cases hnode : fs.node? (b.dir ++ [n]) with
    | none =>
      rw [hnode] at h
      exact bind_eq_error_of h fun _ hdone => by cases hdone
    | some node =>
      rw [hnode] at h
      cases node <;> exact h
  · exact h

theorem failure_copy_iff : (fs.copy source target).failure = some fault ↔
    ¬ fs.ReadsFile source ∧ fs.openForReading source = .error fault ∨
      fs.ReadsFile source ∧ ∀ mode, fs.openForWriting target mode = .error fault := by
  rw [← openForReading_iff]
  cases hreader : fs.openForReading source with
  | error f =>
    have hnot : ¬ ∃ id, (Except.error f : Except Fault LeafId) = .ok id := nofun
    rw [copy, hreader]
    simp only [hnot, not_false_eq_true, true_and, false_and, or_false, Option.some.injEq,
      Except.error.injEq]
  | ok reader =>
    have hreads : ∃ id, (Except.ok reader : Except Fault LeafId) = .ok id := ⟨reader, rfl⟩
    simp only [copy, hreader, hreads, not_true_eq_false, true_and, false_and, false_or]
    constructor
    · intro h mode
      cases hopen : fs.openForWriting target (fs.leaves reader).mode with
      | error f =>
        rw [hopen] at h
        obtain rfl := Option.some.inj h
        exact openForWriting_eq_error hopen mode
      | ok opened =>
        rw [hopen] at h
        cases h
    · intro h
      rw [h]

end FileSystem

namespace Command

/-- Looking at the source once more finds out whether it could be read. -/
theorem culprit_eq (fs : FileSystem) (source target : Path) [Decidable (fs.ReadsFile source)] :
    culprit fs source target = if fs.ReadsFile source then target else source := by
  unfold culprit
  split_ifs with hprobes hreads hreads
  · rfl
  · rw [Bool.and_eq_true] at hprobes
    cases hopen : fs.openForReading source with
    | error f =>
      rw [hopen] at hprobes
      cases hprobes.2
    | ok id => exact absurd (FileSystem.openForReading_iff.1 ⟨id, hopen⟩) hreads
  · obtain ⟨id, hopen⟩ := FileSystem.openForReading_iff.2 hreads
    rw [(FileSystem.status_of_openForReading hopen).2, hopen] at hprobes
    exact absurd rfl hprobes
  · rfl

theorem runCp_eq (w : World) (src dst : Text) (rest : List Text) :
    runCp w (src :: dst :: rest) =
      if !w.files.reaches (w.session.resolve src) then w.refuse (.pathNotFound (w.session.resolve src))
      else w.leave (culprit w.files (w.session.resolve src) (w.session.resolve dst))
        (w.files.copy (w.session.resolve src) (w.session.resolve dst)) := rfl

theorem failed_leave_iff {w : World} {blamed path : Path} {attempt : FileSystem.Attempt}
    {fault : Fault} : (w.leave blamed attempt).verdict = .failed (.files path fault) ↔
      path = blamed ∧ attempt.failure = some fault := by
  obtain ⟨files, failure⟩ := attempt
  cases failure with
  | some other =>
    simp only [World.leave_failed, World.refuse, Verdict.failed.injEq, Failure.files.injEq,
      Option.some.injEq]
    exact and_congr_left' eq_comm
  | none => simp [World.finish]

theorem runCp_failed_iff {w : World} {src dst : Text} {rest : List Text} {path : Path} {fault : Fault} :
    (runCp w (src :: dst :: rest)).verdict = .failed (.files path fault) ↔
      w.files.reaches (w.session.resolve src) = true ∧
        (¬ w.files.ReadsFile (w.session.resolve src) ∧ path = w.session.resolve src ∧
            w.files.openForReading (w.session.resolve src) = .error fault ∨
          w.files.ReadsFile (w.session.resolve src) ∧ path = w.session.resolve dst ∧
            ∀ mode, w.files.openForWriting (w.session.resolve dst) mode = .error fault) := by
  classical
  rw [runCp_eq]
  cases w.files.reaches (w.session.resolve src) with
  | false => simp [World.refuse]
  | true =>
    simp only [Bool.not_true, Bool.false_eq_true, if_false, true_and]
    rw [failed_leave_iff, culprit_eq, FileSystem.failure_copy_iff]
    by_cases hreads : w.files.ReadsFile (w.session.resolve src)
    · rw [if_pos hreads]
      simp only [hreads, not_true_eq_false, true_and, false_and, false_or]
    · rw [if_neg hreads]
      simp only [hreads, not_false_eq_true, true_and, false_and, or_false]

theorem runCp_world_of_failed {w : World} {args : List Text} {failure : Failure}
    (h : (runCp w args).verdict = .failed failure) : (runCp w args).world = w := by
  have hacts := runCp_acts w args
  generalize runCp w args = e at h hacts
  cases hacts with
  | looks _ _ hsame => exact hsame
  | alters _ _ files => cases h

/-- A `cp` that fails on the files of an existing source carries the source and the error of opening it
unless it is a regular file that can be read, and then the destination and the error of opening that for
writing. It has changed nothing, so that these are the errors that opening them still gives. Which
operand is carried tells whether the source could be read; operands that are one path are left out
there, for then the two are carried alike. -/
theorem cp_blames (s : Surroundings) (w : World) (src dst : Text) (rest : List Text) (path : Path)
    (fault : Fault) :
    let source := w.session.resolve src
    let target := w.session.resolve dst
    let e := execute s w cp.name.toList (src :: dst :: rest)
    (e.verdict = .failed (.files path fault) ↔
      w.files.reaches source = true ∧
        (¬ w.files.ReadsFile source ∧ path = source ∧ w.files.openForReading source = .error fault ∨
          w.files.ReadsFile source ∧ path = target ∧
            ∀ mode, w.files.openForWriting target mode = .error fault)) ∧
    (e.verdict = .failed (.files path fault) →
      e.world = w ∧ (source ≠ target → (path = source ↔ ¬ w.files.ReadsFile source))) := by
  intro source target e
  obtain ⟨hworld, hverdict⟩ := execute_name s w (src :: dst :: rest) .cp
  have hsame : e.verdict = (runCp w (src :: dst :: rest)).verdict := hverdict
  rw [hsame]
  refine ⟨runCp_failed_iff, fun hfails => ⟨hworld.trans (runCp_world_of_failed hfails), fun hne => ?_⟩⟩
  obtain ⟨-, ⟨hnot, hpath, -⟩ | ⟨hreads, hpath, -⟩⟩ := runCp_failed_iff.1 hfails
  · exact ⟨fun _ => hnot, fun _ => hpath⟩
  · exact ⟨fun hsource => absurd (hsource.symm.trans hpath) hne, fun hnot => absurd hreads hnot⟩

end Command
end FileShell
