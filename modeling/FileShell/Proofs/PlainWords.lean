import FileShell.Proofs.MaximalRuns
import FileShell.Proofs.WordSpelling

namespace FileShell.Text

/-- A text that is one word as it stands. -/
structure IsBare (t : Text) : Prop where
  ne_nil : t ≠ []
  noQuote : '"' ∉ t
  noBlank : ∀ c ∈ t, isBlank c = false

instance (t : Text) : Decidable t.IsBare :=
  decidable_of_iff (t ≠ [] ∧ '"' ∉ t ∧ t.any isBlank = false)
    ⟨fun ⟨h₁, h₂, h₃⟩ => ⟨h₁, h₂, by simpa using h₃⟩,
      fun ⟨h₁, h₂, h₃⟩ => ⟨h₁, h₂, by simpa using h₃⟩⟩

theorem IsBare.spellsWord {t : Text} (h : t.IsBare) : SpellsWord t t :=
  spellsWord_self h.noQuote h.noBlank

/-- The word that runs begin with, empty if they begin with blanks. -/
def opening : List Run → Text
  | ⟨true, w⟩ :: _ => w
  | _ => []

theorem opening_prepend (c : Char) (rs : List Run) :
    opening (Run.prepend c rs) = if isBlank c then [] else c :: opening rs := by
  obtain - | ⟨⟨isWord, w⟩, rs⟩ := rs
  · cases hc : isBlank c <;> simp [Run.prepend, opening, hc]
  · cases hc : isBlank c <;> cases isWord <;> simp [Run.prepend, opening, hc]

theorem of_mem_runs {t : Text} {r : Run} (h : r ∈ runs t) :
    r.text ≠ [] ∧ ∀ c ∈ r.text, isBlank c = !r.isWord :=
  ⟨(isRunsOf_runs t).ne_nil r h, (isRunsOf_runs t).uniform r h⟩

/-- The first piece of a text is what its runs begin with, and its words are the pieces that are not
empty. -/
theorem exists_splitOnP_eq (t : Text) : ∃ ps,
    t.splitOnP isBlank = opening (runs t) :: ps ∧
      plainWords t = (opening (runs t) :: ps).filter (· ≠ []) := by
  induction t with
  | nil => exact ⟨[], rfl, rfl⟩
  | cons c t ih =>
    obtain ⟨ps, hsplit, hwords⟩ := ih
    have hruns : runs (c :: t) = Run.prepend c (runs t) := rfl
    have hword : ∀ r ∈ runs t, r.text ≠ [] := fun r hr => (of_mem_runs hr).1
    rw [List.splitOnP_cons_eq_if_modifyHead, hsplit, hruns, opening_prepend]
    unfold plainWords at hwords ⊢
    rw [hruns]
    cases hc : isBlank c with
    | true =>
      refine ⟨opening (runs t) :: ps, rfl, ?_⟩
      rcases hrs : runs t with - | ⟨⟨isWord, w⟩, rs⟩
      · rw [hrs] at hwords
        simpa [Run.prepend, hc] using hwords
      · rw [hrs] at hwords
        cases isWord <;> simpa [Run.prepend, hc] using hwords
    | false =>
      refine ⟨ps, rfl, ?_⟩
      rcases hrs : runs t with - | ⟨⟨isWord, w⟩, rs⟩
      · rw [hrs] at hwords
        simpa [Run.prepend, hc, opening] using hwords
      · rw [hrs] at hwords hword
        cases isWord
        · simpa [Run.prepend, hc, opening] using hwords
        · have hw : w ≠ [] := hword ⟨true, w⟩ List.mem_cons_self
          simpa [Run.prepend, hc, opening, hw] using hwords

theorem plainWords_eq (t : Text) : plainWords t = (t.splitOnP isBlank).filter (· ≠ []) := by
  obtain ⟨ps, hsplit, hwords⟩ := exists_splitOnP_eq t
  rw [hsplit, hwords]

theorem plainWords_append_blank {c : Char} (hblank : isBlank c = true) (pre rest : Text) :
    plainWords (pre ++ c :: rest) = plainWords pre ++ plainWords rest := by
  rw [plainWords_eq, plainWords_eq, plainWords_eq, List.splitOnP_append_cons pre rest hblank,
    List.filter_append]

theorem plainWords_of_forall {w : Text} (hne : w ≠ []) (hw : ∀ c ∈ w, isBlank c = false) :
    plainWords w = [w] := by
  rw [plainWords_eq, List.splitOnP_eq_singleton hw]
  simp [hne]

theorem isBlank_of_mem_plainWords {t w : Text} (h : w ∈ plainWords t) :
    ∀ c ∈ w, isBlank c = false := by
  obtain ⟨r, hr, rfl⟩ := List.mem_map.1 h
  obtain ⟨hr, hword⟩ := List.mem_filter.1 hr
  simpa [hword] using (of_mem_runs hr).2

theorem wordsFrom_of_quote_notMem {t : Text} (hquote : '"' ∉ t) (word : Text) :
    wordsFrom false word t = joined word (t.splitOnP isBlank) := by
  induction t generalizing word with
  | nil => cases word <;> simp [wordsFrom, finished, joined]
  | cons c t ih =>
    rw [List.mem_cons, not_or] at hquote
    rw [wordsFrom, if_neg (Ne.symm hquote.1), List.splitOnP_cons_eq_if_modifyHead]
    cases hblank : isBlank c with
    | true =>
      rw [if_pos rfl, joined_cut, ← ih hquote.2]
      rfl
    | false =>
      rw [if_neg Bool.false_ne_true, joined_modifyHead, ← ih hquote.2]
      rfl

theorem words_eq_plainWords {t : Text} (hquote : '"' ∉ t) : words t = plainWords t := by
  have h := wordsFrom_of_quote_notMem hquote []
  rw [words, h, plainWords_eq, joined]
  cases t.splitOnP isBlank <;> rfl

theorem wordsFrom_append_blank {pre : Text} (hquote : '"' ∉ pre) {c : Char}
    (hblank : isBlank c = true) (word rest : Text) :
    wordsFrom false word (pre ++ c :: rest) = wordsFrom false word pre ++ words rest := by
  induction pre generalizing word with
  | nil =>
    change wordsFrom false word (c :: rest) = finished word ++ words rest
    rw [wordsFrom, if_neg (ne_quote_of_isBlank hblank), hblank]
    rfl
  | cons d pre ih =>
    rw [List.mem_cons, not_or] at hquote
    rw [List.cons_append, wordsFrom, wordsFrom, if_neg (Ne.symm hquote.1), if_neg (Ne.symm hquote.1)]
    split
    · rw [ih hquote.2, List.append_assoc]
    · exact ih hquote.2 _

namespace IsBare

variable {t : Text} (h : t.IsBare)
include h

theorem words_eq : words t = [t] :=
  (words_eq_plainWords h.noQuote).trans (plainWords_of_forall h.ne_nil h.noBlank)

theorem words_concat_blank {c : Char} (hblank : isBlank c = true) : words (t ++ [c]) = [t] := by
  have happend := wordsFrom_append_blank h.noQuote hblank [] []
  rw [← words, ← words, h.words_eq] at happend
  exact happend

theorem prepend {s : Text} (hquote : '"' ∉ s) (hblank : ∀ c ∈ s, isBlank c = false) :
    IsBare (s ++ t) := by
  refine ⟨by simp [h.ne_nil], by simp [hquote, h.noQuote], fun c hc => ?_⟩
  obtain hc | hc := List.mem_append.1 hc
  · exact hblank c hc
  · exact h.noBlank c hc

end IsBare

theorem exists_wordsFrom_eq {word : Text} (hne : word ≠ []) (quoted : Bool) (rest : Text) :
    ∃ more ws, wordsFrom quoted word rest = (word.reverse ++ more) :: ws := by
  induction rest generalizing quoted word with
  | nil => exact ⟨[], [], by simp [wordsFrom, finished, hne]⟩
  | cons c rest ih =>
    rw [wordsFrom]
    split_ifs
    · exact ih hne _
    · exact ⟨[], wordsFrom quoted [] rest, by simp [finished, hne]⟩
    · obtain ⟨more, ws, h⟩ := ih (List.cons_ne_nil c word) quoted
      exact ⟨c :: more, ws, by simp [h]⟩

/-- Words are made of characters of the line in their order, quotes aside. -/
theorem flatten_wordsFrom_sublist (quoted : Bool) (word rest : Text) :
    (wordsFrom quoted word rest).flatten.Sublist (word.reverse ++ rest.filter (· ≠ '"')) := by
  induction rest generalizing quoted word with
  | nil => cases word <;> simp [wordsFrom, finished]
  | cons c rest ih =>
    rw [wordsFrom]
    split_ifs with hquote
    · simpa [hquote] using ih (!quoted) word
    · rw [List.flatten_append]
      have hword : (finished word).flatten = word.reverse := by cases word <;> simp [finished]
      rw [hword]
      exact List.Sublist.append_left ((ih quoted []).trans (by simp [hquote])) _
    · simpa [hquote] using ih quoted (c :: word)

end FileShell.Text
