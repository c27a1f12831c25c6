import FileShell.Proofs.Utf8Codec
import FileShell.Sink

namespace FileShell.Sink

/-- A stream that refuses neither a write nor a flush. -/
structure NeverFails (s : Sink) : Prop where
  room : s.room = none
  flushes : s.flushes = none

/-- A stream with a text behind what was written to it before. -/
def extended (s : Sink) (t : Text) : Sink := { s with written := s.written ++ Utf8.encode t }

@[simp] theorem extended_nil (s : Sink) : s.extended [] = s := by
  simp [extended, Utf8.encode_nil]

@[simp] theorem extended_extended (s : Sink) (t u : Text) :
    (s.extended t).extended u = s.extended (t ++ u) := by
  simp [extended, Utf8.encode_append]

theorem neverFails_unlimited : unlimited.NeverFails := ⟨rfl, rfl⟩

theorem NeverFails.extended {s : Sink} (h : s.NeverFails) (t : Text) :
    (s.extended t).NeverFails := ⟨h.room, h.flushes⟩

theorem NeverFails.write_eq {s : Sink} (h : s.NeverFails) (t : Text) :
    s.write t = (s.extended t, none) := by
  simp only [write, writeBytes, h.room, Sink.extended]

theorem NeverFails.flush_eq {s : Sink} (h : s.NeverFails) : s.flush = (s, none) := by
  simp only [flush, h.flushes]

@[simp] theorem write_nil (s : Sink) : s.write [] = (s, none) := by
  obtain ⟨written, room, flushes⟩ := s
  cases room with
  | none => simp [write, writeBytes, Utf8.encode_nil]
  | some n => simp [write, writeBytes, Utf8.encode_nil]

/-- A stream that so many bytes were sent to and that had room for the first `k` of them. -/
def capped (k : Nat) (sent : Bytes) : Sink := ⟨sent.take k, some (k - sent.length), none⟩

theorem withRoom_eq_capped (k : Nat) : withRoom (some k) = capped k [] := by
  simp [withRoom, capped]

@[simp] theorem flush_capped (k : Nat) (sent : Bytes) :
    (capped k sent).flush = (capped k sent, none) := rfl

theorem write_capped_of_le {k : Nat} {sent : Bytes} {t : Text}
    (h : (sent ++ Utf8.encode t).length ≤ k) :
    (capped k sent).write t = (capped k (sent ++ Utf8.encode t), none) := by
  rw [List.length_append] at h
  have hroom : (Utf8.encode t).length ≤ k - sent.length := by omega
  have hsent : sent.length ≤ k := by omega
  simp only [write, writeBytes, capped, if_pos hroom, List.take_append, List.take_of_length_le hsent,
    List.take_of_length_le hroom, List.length_append, Nat.sub_sub]

theorem write_capped_of_lt {k : Nat} {sent : Bytes} {t : Text} (ht : t ≠ [])
    (h : k < (sent ++ Utf8.encode t).length) :
    (capped k sent).write t = (capped k (sent ++ Utf8.encode t), some full) := by
  have hpos := List.length_pos_iff.2 (Utf8.encode_ne_nil ht)
  rw [List.length_append] at h
  have hroom : ¬ (Utf8.encode t).length ≤ k - sent.length := by omega
  have hnone : k - (sent ++ Utf8.encode t).length = 0 := by rw [List.length_append]; omega
  simp only [write, writeBytes, capped, if_neg hroom, List.take_append, hnone]

/-- Whether or not it fits, as much of a text as there is room for has been taken. -/
theorem write_capped_fst (k : Nat) (sent : Bytes) (t : Text) :
    ((capped k sent).write t).1 = capped k (sent ++ Utf8.encode t) := by
  by_cases ht : t = []
  · rw [ht, write_nil, Utf8.encode_nil, List.append_nil]
  obtain h | h := Nat.lt_or_ge k (sent ++ Utf8.encode t).length
  · rw [write_capped_of_lt ht h]
  · rw [write_capped_of_le h]

end FileShell.Sink
