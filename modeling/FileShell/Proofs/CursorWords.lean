import FileShell.Completion
import FileShell.Proofs.PlainWords
import FileShell.Proofs.Utf8Codec
import Mathlib.Data.List.DropRight

namespace FileShell

namespace Text

theorem lastAt?_eq_none {word t : Text} (h : t.length < word.length) : lastAt? word t = none := by
  induction t with
  | nil =>
    have hne : word ≠ [] := List.ne_nil_of_length_pos h
    rw [lastAt?, if_neg hne]
  | cons c rest ih =>
    have hrest : rest.length < word.length := Nat.lt_of_succ_lt h
    have hprefix : ¬ word <+: c :: rest := fun hp => absurd hp.length_le (Nat.not_le.2 h)
    simp only [lastAt?, ih hrest, if_neg hprefix]

theorem plainWords_eq_nil_iff {t : Text} : plainWords t = [] ↔ ∀ c ∈ t, isBlank c = true := by
  induction t with
  | nil => exact ⟨fun _ => nofun, fun _ => rfl⟩
  | cons c t ih =>
    rw [List.forall_mem_cons, ← ih]
    cases hc : isBlank c with
    | true =>
      have hcut : plainWords (c :: t) = plainWords [] ++ plainWords t := plainWords_append_blank hc [] t
      rw [hcut]
      exact (and_iff_right rfl).symm
    | false =>
      -- The character begins a word.
      have hne : plainWords (c :: t) ≠ [] := by
        obtain ⟨first, rest, hsplit⟩ := List.exists_cons_of_ne_nil (List.splitOnP_ne_nil isBlank t)
        rw [plainWords_eq, List.splitOnP_cons_eq_if_modifyHead, hc, hsplit]
        simp
      simp [hne]

theorem lastAt?_append (before word : Text) :
    lastAt? word (before ++ word) = some (Utf8.encode before).length := by
  induction before with
  | nil =>
    cases word with
    | nil => rfl
    | cons c rest =>
      have hshort : lastAt? (c :: rest) rest = none := lastAt?_eq_none (Nat.lt_succ_self _)
      show lastAt? (c :: rest) (c :: rest) = some 0
      rw [lastAt?, hshort]
      exact if_pos (List.prefix_refl _)
  | cons c before ih =>
    have hbytes : (Utf8.encode (c :: before)).length =
        (Utf8.encodeChar c).length + (Utf8.encode before).length := List.length_append
    rw [List.cons_append, lastAt?, ih, hbytes]

end Text

namespace Completer

open Text

theorem upTo_append (pre rest : Text) : upTo (Utf8.encode pre).length (pre ++ rest) = some pre := by
  induction pre with
  | nil => simp [Utf8.encode_nil, upTo]
  | cons c pre ih =>
    have hsize : 0 < (Utf8.encodeChar c).length :=
      List.length_pos_iff.2 (Utf8.encodeChar_ne_nil c)
    have hbytes : (Utf8.encode (c :: pre)).length =
        (Utf8.encodeChar c).length + (Utf8.encode pre).length := List.length_append
    obtain ⟨n, hn⟩ : ∃ n, (Utf8.encode (c :: pre)).length = n + 1 := ⟨_, (Nat.succ_pred (by omega)).symm⟩
    have hrest : n + 1 - (Utf8.encodeChar c).length = (Utf8.encode pre).length := by omega
    rw [hn, List.cons_append, upTo, hrest, ih]
    exact if_pos (by omega)

theorem completeAt_end (completer : Completer) (fs : FileSystem) (line : Text) :
    completer.completeAt fs line (Utf8.encode line).length = some (completer.complete fs line) := by
  have hline := upTo_append line []
  rw [List.append_nil] at hline
  rw [completeAt, hline, Option.map_some]

theorem getLast?_rdropWhile {p : Char → Bool} (t : Text) :
    ∀ c ∈ (t.rdropWhile p).getLast?, p c = false := by
  intro c hc
  obtain ⟨hne, rfl⟩ := List.mem_getLast?_eq_getLast hc
  simpa using List.rdropWhile_last_not p t hne

theorem exists_cursor_word (line : Text) : ∃ pre word, line = pre ++ word ∧
    (∀ c ∈ pre.getLast?, isBlank c = true) ∧ ∀ c ∈ word, isBlank c = false := by
  refine ⟨line.rdropWhile fun c => !isBlank c, line.rtakeWhile fun c => !isBlank c,
    (List.rdropWhile_append_rtakeWhile ..).symm, fun c hc => ?_, fun c hc => ?_⟩
  · simpa using getLast?_rdropWhile line c hc
  · simpa using List.mem_rtakeWhile_imp hc

theorem wordsToCursor_append {pre word : Text} (hpre : ∀ c ∈ pre.getLast?, isBlank c = true)
    (hword : ∀ c ∈ word, isBlank c = false) (hne : pre ++ word ≠ []) :
    wordsToCursor (pre ++ word) = plainWords pre ++ [word] := by
  -- With nothing behind the last blank, the empty word stands for what will be typed.
  have hwords (hsome : word ≠ []) : plainWords (pre ++ word) = plainWords pre ++ [word] := by
    obtain rfl | ⟨init, c, rfl⟩ := List.eq_nil_or_concat pre
    · exact plainWords_of_forall hsome hword
    · have hblank : isBlank c = true := hpre c (by simp)
      have hone : plainWords word = [word] := plainWords_of_forall hsome hword
      have hnil : plainWords [] = [] := rfl
      simp [plainWords_append_blank hblank, hone, hnil]
  obtain rfl | hsome := eq_or_ne word []
  · rw [List.append_nil] at hne ⊢
    have hend : endsInBlank pre = true := by
      rw [endsInBlank, List.getLast?_eq_some_getLast hne]
      exact hpre _ (List.getLast?_eq_some_getLast hne)
    rw [wordsToCursor, hend, if_pos rfl]
  · have hend : endsInBlank (pre ++ word) = false := by
      rw [endsInBlank, List.getLast?_append, List.getLast?_eq_some_getLast hsome]
      exact hword _ (List.getLast_mem hsome)
    rw [wordsToCursor, hend, hwords hsome]
    simp

/-- The line up to the cursor ends in the word that is completed. -/
theorem complete_append {before word : Text} (hbefore : ∀ c ∈ before.getLast?, isBlank c = true)
    (hword : ∀ c ∈ word, isBlank c = false) (completer : Completer) (fs : FileSystem) :
    completer.complete fs (before ++ word) = ((Utf8.encode before).length,
      if before.all isBlank then completer.commandCandidates word
      else completer.pathCandidates fs word) := by
  obtain hempty | hne := eq_or_ne (before ++ word) []
  · obtain ⟨rfl, rfl⟩ := List.append_eq_nil_iff.1 hempty
    rfl
  have hblank : before.all isBlank = true ↔ plainWords before = [] :=
    List.all_eq_true.trans plainWords_eq_nil_iff.symm
  have hlast := lastAt?_append before word
  rw [complete, wordsToCursor_append hbefore hword hne, List.reverse_append]
  cases hbehind : (plainWords before).reverse with
  | nil =>
    rw [if_pos (hblank.2 (List.reverse_eq_nil_iff.1 hbehind))]
    simp [hlast]
  | cons other words =>
    have hsome : plainWords before ≠ [] := by
      rintro hnil
      simp [hnil] at hbehind
    rw [if_neg (mt hblank.1 hsome)]
    cases word with
    | nil => simp
    | cons c word => simp [hlast]

theorem splitAtSlash_eq (word : Text) : ∃ dir name, splitAtSlash word = (dir, name) ∧
    word = dir ++ name ∧ '/' ∉ name ∧ ∀ c ∈ dir.getLast?, c = '/' := by
  have happend : word.rdropWhile (· ≠ '/') ++ word.rtakeWhile (· ≠ '/') = word :=
    List.rdropWhile_append_rtakeWhile ..
  refine ⟨word.rdropWhile (· ≠ '/'), word.rtakeWhile (· ≠ '/'), ?_, happend.symm, fun hmem => ?_,
    fun c hc => ?_⟩
  · have hlength := congrArg List.length happend
    rw [List.length_append] at hlength
    have htake : (word.rdropWhile (· ≠ '/') ++ word.rtakeWhile (· ≠ '/')).take
        (word.length - (word.rtakeWhile (· ≠ '/')).length) = word.rdropWhile (· ≠ '/') :=
      List.take_left' (by omega)
    rw [happend] at htake
    rw [← htake]
    rfl
  · simpa using List.mem_rtakeWhile_imp hmem
  · simpa using getLast?_rdropWhile word c hc

end Completer
end FileShell
