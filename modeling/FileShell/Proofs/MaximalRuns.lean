import FileShell.Text.Runs
import Mathlib.Data.List.Chain
import Mathlib.Tactic.SplitIfs

namespace FileShell.Text

/-- Runs that are the maximal runs of a text: none can take in a character of the next. -/
structure IsRunsOf (rs : List Run) (t : Text) : Prop where
  joined : rs.flatMap (·.text) = t
  ne_nil : ∀ r ∈ rs, r.text ≠ []
  uniform : ∀ r ∈ rs, ∀ c ∈ r.text, isBlank c = !r.isWord
  alternate : rs.IsChain fun r next => r.isWord ≠ next.isWord

theorem isRunsOf_nil_left {t : Text} : IsRunsOf [] t ↔ t = [] :=
  ⟨fun h => h.joined.symm, fun h => ⟨h.symm, by simp, by simp, .nil⟩⟩

theorem isRunsOf_nil_right {rs : List Run} : IsRunsOf rs [] ↔ rs = [] := by
  refine ⟨fun h => ?_, fun h => h ▸ isRunsOf_nil_left.2 rfl⟩
  cases rs with
  | nil => rfl
  | cons r rs => exact absurd (List.append_eq_nil_iff.1 h.joined).1 (h.ne_nil r List.mem_cons_self)

/-- The first run is all of one kind, and what stands behind it begins with the other. -/
theorem isRunsOf_cons_iff {isWord : Bool} {w t : Text} {rs : List Run} :
    IsRunsOf (⟨isWord, w⟩ :: rs) t ↔ w ≠ [] ∧ (∀ c ∈ w, isBlank c = !isWord) ∧
      (∀ r ∈ rs.head?, isWord ≠ r.isWord) ∧ ∃ rest, t = w ++ rest ∧ IsRunsOf rs rest := by
  constructor
  · rintro ⟨hjoined, hne, huniform, halternate⟩
    rw [List.forall_mem_cons] at hne huniform
    rw [List.isChain_cons] at halternate
    exact ⟨hne.1, huniform.1, halternate.1, _, hjoined.symm, rfl, hne.2, huniform.2, halternate.2⟩
  · rintro ⟨hne, huniform, halternate, rest, rfl, h⟩
    exact ⟨congrArg (w ++ ·) h.joined, List.forall_mem_cons.2 ⟨hne, h.ne_nil⟩,
      List.forall_mem_cons.2 ⟨huniform, h.uniform⟩, List.isChain_cons.2 ⟨halternate, h.alternate⟩⟩

namespace IsRunsOf

variable {rs : List Run} {c : Char} {t : Text}

theorem prepend (h : IsRunsOf rs t) (c : Char) : IsRunsOf (Run.prepend c rs) (c :: t) := by
  have halone : ∀ d ∈ [c], isBlank d = !(!isBlank c) := by simp
  obtain - | ⟨⟨isWord, w⟩, rs⟩ := rs
  · exact isRunsOf_cons_iff.2 ⟨List.cons_ne_nil c [], halone, by simp, t, rfl, h⟩
  · rw [Run.prepend]
    split_ifs with hkind
    · obtain ⟨-, huniform, halternate, rest, rfl, hrest⟩ := isRunsOf_cons_iff.1 h
      have hsame : isBlank c = !isWord := by simp [show isWord = !isBlank c from hkind]
      exact isRunsOf_cons_iff.2 ⟨List.cons_ne_nil c w, List.forall_mem_cons.2 ⟨hsame, huniform⟩,
        halternate, rest, rfl, hrest⟩
    · refine isRunsOf_cons_iff.2 ⟨List.cons_ne_nil c [], halone, ?_, t, rfl, h⟩
      simpa using Ne.symm hkind

theorem exists_prepend (h : IsRunsOf rs (c :: t)) :
    ∃ rs', IsRunsOf rs' t ∧ Run.prepend c rs' = rs := by
  obtain - | ⟨⟨isWord, w⟩, rs⟩ := rs
  · cases isRunsOf_nil_left.1 h
  obtain ⟨hne, huniform, halternate, rest, ht, hrest⟩ := isRunsOf_cons_iff.1 h
  obtain ⟨d, w, rfl⟩ := List.exists_cons_of_ne_nil hne
  obtain ⟨rfl, rfl⟩ := List.cons.inj ht
  rw [List.forall_mem_cons] at huniform
  have hkind : isWord = !isBlank c := by simp [huniform.1]
  cases w with
  | nil =>
    -- The character was a run of its own.
    refine ⟨rs, hrest, ?_⟩
    subst hkind
    cases rs with
    | nil => rfl
    | cons r rs => exact if_neg (Ne.symm (halternate r rfl))
  | cons e w =>
    exact ⟨⟨isWord, e :: w⟩ :: rs,
      isRunsOf_cons_iff.2 ⟨List.cons_ne_nil e w, huniform.2, halternate, rest, rfl, hrest⟩,
      if_pos hkind⟩

end IsRunsOf

theorem isRunsOf_runs (t : Text) : IsRunsOf (runs t) t := by
  induction t with
  | nil => exact isRunsOf_nil_left.2 rfl
  | cons c t ih => exact ih.prepend c

theorem runs_eq_iff {t : Text} {rs : List Run} : runs t = rs ↔ IsRunsOf rs t := by
  refine ⟨fun h => h ▸ isRunsOf_runs t, fun h => ?_⟩
  induction t generalizing rs with
  | nil => exact (isRunsOf_nil_right.1 h).symm
  | cons c t ih =>
    obtain ⟨rs', h', rfl⟩ := h.exists_prepend
    exact congrArg (Run.prepend c) (ih h')

end FileShell.Text
