import FileShell.Text.Words
import Mathlib.Tactic.SplitIfs

namespace FileShell.Text

/-- Whether a character, known by its position in a line, is a blank that cuts the line there. -/
def isCut (line : Text) (c : Char × Nat) : Bool :=
  isBlank c.1 && (line.take c.2).count '"' % 2 == 0

/-- The pieces of a line without its quotes, cut at each blank behind an even number of quotes and
without that blank; empty pieces do not count. -/
def wordsBetweenCuts (line : Text) : List Text :=
  let kept := line.zipIdx.filter fun c => c.1 ≠ '"'
  ((kept.splitOnP (isCut line)).map (·.map Prod.fst)).filter (· ≠ [])

/-- How one word can be written: bare characters, none of them blank, and stretches between quotes,
which may be empty. -/
inductive SpellsWord : Text → Text → Prop where
  | done : SpellsWord [] []
  | bare {c : Char} {s word : Text} (hquote : c ≠ '"') (hblank : isBlank c = false)
      (h : SpellsWord s word) : SpellsWord (c :: s) (c :: word)
  | quoted {inner s word : Text} (hinner : '"' ∉ inner) (h : SpellsWord s word) :
      SpellsWord ('"' :: (inner ++ '"' :: s)) (inner ++ word)

/-- What can stand before and behind words: blanks, and quotes with nothing between them. -/
inductive IsGap : Text → Prop where
  | done : IsGap []
  | blank {c : Char} {s : Text} (hblank : isBlank c = true) (h : IsGap s) : IsGap (c :: s)
  | emptyQuotes {s : Text} (h : IsGap s) : IsGap ('"' :: '"' :: s)

/-- How a list of words can be written with every quote closed: a word ends at a blank or with the
line, and none is empty. -/
inductive SpellsClosed : Text → List Text → Prop where
  | done {gap : Text} (hgap : IsGap gap) : SpellsClosed gap []
  | word {gap s word rest : Text} {ws : List Text} (hgap : IsGap gap) (hs : SpellsWord s word)
      (hword : word ≠ []) (hend : ∀ c ∈ rest.head?, isBlank c = true)
      (h : SpellsClosed rest ws) : SpellsClosed (gap ++ (s ++ rest)) (word :: ws)

/-- How a list of words can be written: a closing quote at the end of the line may be left out. -/
def Spells (line : Text) (ws : List Text) : Prop :=
  SpellsClosed line ws ∨ SpellsClosed (line ++ ['"']) ws

/-- The words that pieces make, the first of them behind what has been collected so far. -/
def joined (word : Text) (pieces : List Text) : List Text :=
  (pieces.modifyHead (word.reverse ++ ·)).filter (· ≠ [])

theorem joined_cut (word : Text) (pieces : List Text) :
    joined word ([] :: pieces) = finished word ++ joined [] pieces := by
  unfold joined finished
  cases word <;> cases pieces <;> simp

theorem joined_modifyHead (c : Char) (word : Text) (pieces : List Text) :
    joined word (pieces.modifyHead (c :: ·)) = joined (c :: word) pieces := by
  cases pieces <;> simp [joined]

/-- The pieces of what comes behind so many characters of a line. -/
def piecesBehind (line : Text) (start : Nat) (rest : Text) : List Text :=
  (((rest.zipIdx start).filter fun c => c.1 ≠ '"').splitOnP (isCut line)).map (·.map Prod.fst)

theorem piecesBehind_quote (line : Text) (start : Nat) (rest : Text) :
    piecesBehind line start ('"' :: rest) = piecesBehind line (start + 1) rest := by
  simp [piecesBehind, List.zipIdx_cons]

theorem piecesBehind_cut {line : Text} {start : Nat} {c : Char} (hquote : c ≠ '"')
    (hcut : isCut line (c, start) = true) (rest : Text) :
    piecesBehind line start (c :: rest) = [] :: piecesBehind line (start + 1) rest := by
  simp [piecesBehind, List.zipIdx_cons, hquote, List.splitOnP_cons_eq_if_modifyHead, hcut]

theorem piecesBehind_kept {line : Text} {start : Nat} {c : Char} (hquote : c ≠ '"')
    (hcut : isCut line (c, start) = false) (rest : Text) :
    piecesBehind line start (c :: rest) =
      (piecesBehind line (start + 1) rest).modifyHead (c :: ·) := by
  simp only [piecesBehind, List.zipIdx_cons, ne_eq, hquote, not_false_eq_true, decide_true,
    List.filter_cons_of_pos, List.splitOnP_cons_eq_if_modifyHead, hcut, Bool.false_eq_true,
    if_false]
  cases List.splitOnP (isCut line) _ <;> rfl

/-- Reading on behind some part of a line, with a word under way. -/
theorem wordsFrom_eq_joined (pre word rest : Text) :
    wordsFrom (pre.count '"' % 2 == 1) word rest =
      joined word (piecesBehind (pre ++ rest) pre.length rest) := by
  -- Whether a blank cuts hangs on all quotes before it, so that what has been read is kept as `pre`.
  induction rest generalizing pre word with
  | nil => cases word <;> simp [wordsFrom, finished, joined, piecesBehind]
  | cons c rest ih =>
    have hnext := ih (pre ++ [c])
    rw [List.append_assoc, List.singleton_append, List.length_append, List.length_singleton]
      at hnext
    by_cases hquote : c = '"'
    · subst hquote
      have hturn : ((pre ++ ['"']).count '"' % 2 == 1) = !(pre.count '"' % 2 == 1) := by
        have hone : (pre ++ ['"']).count '"' = pre.count '"' + 1 := by simp
        obtain h | h := Nat.mod_two_eq_zero_or_one (pre.count '"') <;> grind
      rw [wordsFrom, if_pos rfl, piecesBehind_quote, ← hnext, hturn]
    · have hsame : (pre ++ [c]).count '"' = pre.count '"' := by simp [hquote]
      have hcut : isCut (pre ++ c :: rest) (c, pre.length) =
          (!(pre.count '"' % 2 == 1) && isBlank c) := by
        rw [isCut, List.take_left, Bool.and_comm]
        obtain h | h := Nat.mod_two_eq_zero_or_one (pre.count '"') <;> rw [h] <;> rfl
      rw [hsame] at hnext
      rw [wordsFrom, if_neg hquote, ← hcut]
      cases hc : isCut (pre ++ c :: rest) (c, pre.length) with
      | true => rw [if_pos rfl, piecesBehind_cut hquote hc, joined_cut, hnext]
      | false =>
        rw [if_neg Bool.false_ne_true, piecesBehind_kept hquote hc, joined_modifyHead, hnext]

theorem words_eq_wordsBetweenCuts (line : Text) : words line = wordsBetweenCuts line := by
  have h := wordsFrom_eq_joined [] [] line
  rw [List.nil_append] at h
  refine h.trans ?_
  unfold joined
  cases hpieces : piecesBehind line 0 line <;> simp_all [wordsBetweenCuts, piecesBehind]

theorem ne_quote_of_isBlank {c : Char} (hblank : isBlank c = true) : c ≠ '"' := by
  rintro rfl
  revert hblank
  decide

theorem spellsWord_self {t : Text} (hquote : '"' ∉ t) (hblank : ∀ c ∈ t, isBlank c = false) :
    SpellsWord t t := by
  induction t with
  | nil => exact .done
  | cons c t ih =>
    rw [List.mem_cons, not_or] at hquote
    rw [List.forall_mem_cons] at hblank
    exact .bare (Ne.symm hquote.1) hblank.1 (ih hquote.2 hblank.2)

theorem wordsFrom_quoted {inner : Text} (hinner : '"' ∉ inner) (word rest : Text) :
    wordsFrom true word (inner ++ '"' :: rest) = wordsFrom false (inner.reverse ++ word) rest := by
  induction inner generalizing word with
  | nil => rfl
  | cons c inner ih =>
    rw [List.mem_cons, not_or] at hinner
    have hquote : c ≠ '"' := fun h => hinner.1 h.symm
    rw [List.cons_append, wordsFrom, if_neg hquote]
    simpa using ih hinner.2 (c :: word)

theorem SpellsWord.wordsFrom_append {s word : Text} (h : SpellsWord s word)
    (before rest : Text) :
    wordsFrom false before (s ++ rest) = wordsFrom false (word.reverse ++ before) rest := by
  induction h generalizing before with
  | done => rfl
  | @bare c s word hquote hblank h ih =>
    rw [List.cons_append, wordsFrom, if_neg hquote]
    simpa [hblank] using ih (c :: before)
  | @quoted inner s word hinner h ih =>
    simp [wordsFrom, wordsFrom_quoted hinner, ih]

theorem IsGap.wordsFrom_append {gap : Text} (h : IsGap gap) (rest : Text) :
    wordsFrom false [] (gap ++ rest) = wordsFrom false [] rest := by
  induction h with
  | done => rfl
  | @blank c s hblank h ih =>
    rw [List.cons_append, wordsFrom, if_neg (ne_quote_of_isBlank hblank)]
    simpa [hblank, finished] using ih
  | emptyQuotes h ih => simpa [wordsFrom] using ih

theorem wordsFrom_of_end (word : Text) {rest : Text}
    (hend : ∀ c ∈ rest.head?, isBlank c = true) :
    wordsFrom false word rest = finished word ++ wordsFrom false [] rest := by
  cases rest with
  | nil => simp [wordsFrom, finished]
  | cons c rest =>
    have hblank := hend c rfl
    simp [wordsFrom, ne_quote_of_isBlank hblank, hblank, finished]

theorem SpellsClosed.words_eq {line : Text} {ws : List Text} (h : SpellsClosed line ws) :
    words line = ws := by
  unfold words
  induction h with
  | @done gap hgap =>
    have hnone := hgap.wordsFrom_append []
    rwa [List.append_nil] at hnone
  | @word gap s word rest ws hgap hs hword hend h ih =>
    rw [hgap.wordsFrom_append, hs.wordsFrom_append, List.append_nil, wordsFrom_of_end _ hend, ih]
    simp [finished, hword]

theorem wordsFrom_concat_quote (quoted : Bool) (word line : Text) :
    wordsFrom quoted word (line ++ ['"']) = wordsFrom quoted word line := by
  induction line generalizing quoted word with
  | nil => rfl
  | cons c line ih =>
    simp only [List.cons_append, wordsFrom, ih]

theorem SpellsWord.isGap {s : Text} (h : SpellsWord s []) : IsGap s := by
  generalize hword : ([] : Text) = word at h
  induction h with
  | done => exact .done
  | bare hquote hblank h ih => cases hword
  | @quoted inner s word hinner h ih =>
    obtain ⟨rfl, rfl⟩ := List.append_eq_nil_iff.1 hword.symm
    exact .emptyQuotes (ih rfl)

theorem IsGap.append {gap gap' : Text} (h : IsGap gap) (h' : IsGap gap') :
    IsGap (gap ++ gap') := by
  induction h with
  | done => exact h'
  | blank hblank h ih => exact .blank hblank ih
  | emptyQuotes h ih => exact .emptyQuotes ih

theorem SpellsClosed.gap_append {gap line : Text} {ws : List Text} (hgap : IsGap gap)
    (h : SpellsClosed line ws) : SpellsClosed (gap ++ line) ws := by
  cases h with
  | done hgap' => exact .done (hgap.append hgap')
  | word hgap' hs hword hend h =>
    rw [← List.append_assoc]
    exact .word (hgap.append hgap') hs hword hend h

/-- What is written for a word, which may be none at all, before a line that begins with a blank. -/
theorem SpellsWord.exists_spellsClosed {gap s word rest : Text} {ws : List Text}
    (hgap : IsGap gap) (hs : SpellsWord s word) (hend : ∀ c ∈ rest.head?, isBlank c = true)
    (h : SpellsClosed rest ws) : ∃ ws, SpellsClosed (gap ++ (s ++ rest)) ws := by
  by_cases hword : word = []
  · subst hword
    exact ⟨ws, (h.gap_append hs.isGap).gap_append hgap⟩
  · exact ⟨word :: ws, .word hgap hs hword hend h⟩

/-- A line with an even number of quotes begins with what is written for a word, and a line that
spells words follows. -/
theorem exists_spellsWord_append {line : Text} (heven : line.count '"' % 2 = 0) :
    ∃ s word rest ws, line = s ++ rest ∧ SpellsWord s word ∧
      (∀ c ∈ rest.head?, isBlank c = true) ∧ SpellsClosed rest ws := by
  -- The induction is on the length, as all that stands between two quotes is taken off at once.
  induction hn : line.length using Nat.strongRecOn generalizing line with
  | _ n ih =>
  subst hn
  cases line with
  | nil => exact ⟨[], [], [], [], rfl, .done, by simp, .done .done⟩
  | cons c line =>
    by_cases hquote : c = '"'
    · -- The stretch up to the quote that closes this one belongs to the word.
      subst hquote
      have hmem : '"' ∈ line := by
        apply List.count_pos_iff.1
        rw [List.count_cons_self] at heven
        omega
      obtain ⟨inner, after, rfl, hinner⟩ := List.eq_append_cons_of_mem hmem
      have heven' : after.count '"' % 2 = 0 := by
        simp [List.count_eq_zero_of_not_mem hinner] at heven
        omega
      obtain ⟨s, word, rest, ws, rfl, hs, hend, hws⟩ := ih after.length (by simp; omega) heven' rfl
      exact ⟨'"' :: (inner ++ '"' :: s), inner ++ word, rest, ws, by simp, .quoted hinner hs, hend,
        hws⟩
    · have heven' : line.count '"' % 2 = 0 := by simpa [hquote] using heven
      obtain ⟨s, word, rest, ws, rfl, hs, hend, hws⟩ := ih line.length (by simp) heven' rfl
      cases hblank : isBlank c with
      | false => exact ⟨c :: s, c :: word, rest, ws, rfl, .bare hquote hblank hs, hend, hws⟩
      | true =>
        obtain ⟨ws', hws'⟩ := hs.exists_spellsClosed (.blank hblank .done) hend hws
        exact ⟨[], [], c :: (s ++ rest), ws', rfl, .done, by simpa using hblank, hws'⟩

theorem spellsClosed_words {line : Text} (heven : line.count '"' % 2 = 0) :
    SpellsClosed line (words line) := by
  obtain ⟨s, word, rest, ws, rfl, hs, hend, hws⟩ := exists_spellsWord_append heven
  obtain ⟨ws', h⟩ := hs.exists_spellsClosed .done hend hws
  rw [List.nil_append] at h
  rwa [h.words_eq]

/-- Every line gives the words between its cuts, and it gives a list of words exactly if it is one
of the list's spellings. -/
theorem words_exact (line : Text) :
    words line = wordsBetweenCuts line ∧ ∀ ws, words line = ws ↔ Spells line ws := by
  refine ⟨words_eq_wordsBetweenCuts line, fun ws => ⟨?_, ?_⟩⟩
  · rintro rfl
    obtain heven | hodd := Nat.mod_two_eq_zero_or_one (line.count '"')
    · exact .inl (spellsClosed_words heven)
    · -- The last quote is not closed, and one at the end of the line closes it.
      have heven : (line ++ ['"']).count '"' % 2 = 0 := by simp; omega
      have hclosed := spellsClosed_words heven
      rw [words, wordsFrom_concat_quote] at hclosed
      exact .inr hclosed
  · rintro (h | h)
    · exact h.words_eq
    · rw [← h.words_eq, words, words, wordsFrom_concat_quote]

end FileShell.Text
