import FileShell.Proofs.CursorWords
import FileShell.Proofs.TextOrder

namespace FileShell

namespace Text

/-- A position in the bytes of a text at which no character is cut. -/
def IsBoundary (t : Text) (pos : Nat) : Prop :=
  ∃ before after, t = before ++ after ∧ (Utf8.encode before).length = pos

end Text

namespace Completer

open Text

theorem mem_commandCandidates_iff {completer : Completer} {word : Text} {c : Candidate} :
    c ∈ completer.commandCandidates word ↔
      ∃ name ∈ completer.commands, word <+: name ∧ c = ⟨name, name ++ [' ']⟩ := by
  unfold commandCandidates
  rw [List.mem_map]
  apply exists_congr
  intro name
  rw [List.mem_filter, mem_sortNames, List.isPrefixOf_iff_prefix, and_assoc, eq_comm (a := c)]

theorem pairwise_commandCandidates (completer : Completer) (word : Text) :
    (completer.commandCandidates word).Pairwise
      fun a b => Utf8.encode a.display < Utf8.encode b.display := by
  refine List.pairwise_map.2 (List.Pairwise.filter _ ?_)
  exact (pairwise_sortNames completer.commands).imp Utf8.encode_lt_of_lt

/-- Completion replaces the word that ends at the cursor, from where it stands last before the cursor.
There is no blank in this word, and nothing or a blank before it. With nothing but blanks before it, it
is completed by the names of commands that go on from it, in order, and otherwise by paths. What
stands behind the cursor does not count. -/
theorem complete_replaces_cursor_word (completer : Completer) (fs : FileSystem) (line : Text) (pos : Nat)
    (hpos : line.IsBoundary pos) :
    ∃ before word after, line = before ++ word ++ after ∧
      (Utf8.encode (before ++ word)).length = pos ∧
      (∀ c ∈ word, isBlank c = false) ∧ (∀ c ∈ before.getLast?, isBlank c = true) ∧
      ∃ start candidates, completer.completeAt fs line pos = some (start, candidates) ∧
        start = (Utf8.encode before).length ∧ start ≤ pos ∧ line.IsBoundary start ∧
        word.lastAt? (before ++ word) = some start ∧
        candidates = (if before.all isBlank then completer.commandCandidates word
          else completer.pathCandidates fs word) ∧
        ((completer.commandCandidates word).Pairwise
          fun a b => Utf8.encode a.display < Utf8.encode b.display) ∧
        (∀ c, c ∈ completer.commandCandidates word ↔
          ∃ name ∈ completer.commands, word <+: name ∧ c = ⟨name, name ++ [' ']⟩) ∧
        ∀ after', completer.completeAt fs (before ++ word ++ after') pos =
          some (start, candidates) := by
  obtain ⟨upToCursor, after, rfl, rfl⟩ := hpos
  obtain ⟨before, word, rfl, hbefore, hword⟩ := exists_cursor_word upToCursor
  have hcomplete (after' : Text) :
      completer.completeAt fs (before ++ word ++ after') (Utf8.encode (before ++ word)).length =
        some (completer.complete fs (before ++ word)) := by
    rw [completeAt, upTo_append, Option.map_some]
  rw [complete_append hbefore hword] at hcomplete
  refine ⟨before, word, after, rfl, rfl, hword, hbefore, _, _, hcomplete after, rfl, ?_, ?_,
    lastAt?_append before word, rfl, pairwise_commandCandidates completer word,
    fun c => mem_commandCandidates_iff, hcomplete⟩
  · rw [Utf8.encode_append, List.length_append]
    exact Nat.le_add_right ..
  · exact ⟨before, word ++ after, List.append_assoc .., rfl⟩

/-- Of a word that comes twice, the one before the cursor is replaced. -/
theorem complete_replaces_repeated_word :
    let line : Text := "cp é é".toList
    let completer : Completer := ⟨[], ⟨none⟩, Path.ofString "/"⟩
    line.IsBoundary 8 ∧
      ∃ candidates, completer.completeAt (.empty 0) line 8 = some (6, candidates) := by
  intro line completer
  have hboundary : line.IsBoundary 8 := ⟨line, [], rfl, by decide⟩
  obtain ⟨-, -, -, -, -, -, -, start, candidates, hcomplete, -⟩ :=
    complete_replaces_cursor_word completer (.empty 0) line 8 hboundary
  have hat : completer.completeAt (.empty 0) line 8 = some (completer.complete (.empty 0) line) :=
    completeAt_end completer (.empty 0) line
  have hstart : start = 6 := congrArg Prod.fst (Option.some.inj (hcomplete.symm.trans hat))
  rw [hstart] at hcomplete
  exact ⟨hboundary, candidates, hcomplete⟩

end Completer
end FileShell
