import FileShell.Proofs.Utf8Strict

namespace FileShell.Utf8

variable {b : UInt8} {c : Char}

theorem start_of_lt (hb : b.toNat < 0x80) : start b = .error (some (Char.ofNat b.toNat)) := by
  rw [start, if_pos hb]

theorem pieces_append_cons (hb : b.toNat < 0x80) (front rest : Bytes) :
    pieces none (front ++ b :: rest) =
        pieces none front ++ some (Char.ofNat b.toNat) :: pieces none rest ∧
      ∀ p, 0x80 ≤ p.low → pieces (some p) (front ++ b :: rest) =
        pieces (some p) front ++ some (Char.ofNat b.toNat) :: pieces none rest := by
  have hstart := start_of_lt hb
  induction front with
  | nil =>
    refine ⟨pieces_of_start_error hstart rest, fun p hlow => ?_⟩
    have hout : ¬ (p.low ≤ b.toNat ∧ b.toNat ≤ p.high) := by omega
    simp only [List.nil_append, pieces, if_neg hout, hstart, List.singleton_append]
  | cons a front ih =>
    obtain ⟨hwhole, hpending⟩ := ih
    have hafresh (p : Pending) (h : start a = .ok p) := hpending p (owes_of_start h).low
    constructor
    · rw [List.cons_append]
      cases h : start a with
      | error c => rw [pieces_of_start_error h, pieces_of_start_error h, hwhole, List.cons_append]
      | ok p => rw [pieces_of_start_ok h, pieces_of_start_ok h, hafresh p h]
    · intro p hlow
      rw [List.cons_append, pieces, pieces]
      dsimp only
      split_ifs
      · rw [hwhole, List.cons_append]
      · exact hpending _ (Nat.le_refl _)
      · cases h : start a with
        | error c => simp only [hwhole, List.cons_append]
        | ok p => simp only [hafresh p h, List.cons_append]

theorem decode_append_cons (hb : b.toNat < 0x80) (front rest : Bytes) :
    decode (front ++ b :: rest) = decode front ++ Char.ofNat b.toNat :: decode rest := by
  rw [decode, (pieces_append_cons hb front rest).1, List.map_append, List.map_cons]
  rfl

/-- A character that took more than one byte is none below 0x80. -/
theorem of_mem_pieces (hc : c.toNat < 0x80) (bs : Bytes) :
    (some c ∈ pieces none bs → UInt8.ofNat c.toNat ∈ bs) ∧
      ∀ p got, Owes p got → got ≠ [] → some c ∈ pieces (some p) bs → UInt8.ofNat c.toNat ∈ bs := by
  induction bs with
  | nil => exact ⟨fun h => by simp [pieces] at h, fun p got _ _ h => by simp [pieces] at h⟩
  | cons a bs ih =>
    obtain ⟨hwhole, hpending⟩ := ih
    have hafresh (h : some c ∈ pieces none (a :: bs)) : UInt8.ofNat c.toNat ∈ a :: bs := by
      cases hstart : start a with
      | ok p =>
        rw [pieces_of_start_ok hstart] at h
        have hmem := hpending p [a] (owes_of_start hstart) (List.cons_ne_nil a []) h
        exact List.mem_cons_of_mem a hmem
      | error d =>
        rw [pieces_of_start_error hstart] at h
        obtain rfl | h := List.mem_cons.1 h
        · have hbyte := encodeChar_of_start hstart
          rw [encodeChar_of_lt hc] at hbyte
          rw [(List.cons.inj hbyte).1]
          exact List.mem_cons_self
        · exact List.mem_cons_of_mem a (hwhole h)
    refine ⟨hafresh, fun p got howes hgot h => ?_⟩
    rw [pieces] at h
    split_ifs at h with hin hone
    · obtain hd | h := List.mem_cons.1 h
      · have hbytes := (howes.next hin.1 hin.2).1 hone
        rw [← Option.some.inj hd, encodeChar_of_lt hc] at hbytes
        have hlength := congrArg List.length hbytes
        rw [List.length_append, List.length_singleton, List.length_singleton] at hlength
        exact absurd (List.length_eq_zero_iff.1 (by omega)) hgot
      · exact List.mem_cons_of_mem a (hwhole h)
    · have hmem := hpending _ (got ++ [a]) ((howes.next hin.1 hin.2).2 hone) (by simp) h
      exact List.mem_cons_of_mem a hmem
    · refine hafresh ?_
      cases hstart : start a with
      | ok q => simpa [pieces, hstart] using h
      | error d => simpa [pieces, hstart] using h

theorem mem_decode_iff (hc : c.toNat < 0x80) (bs : Bytes) :
    c ∈ decode bs ↔ UInt8.ofNat c.toNat ∈ bs := by
  constructor
  · intro h
    obtain ⟨d, hd, hget⟩ := List.mem_map.1 h
    cases d with
    | none =>
      have hreplacement : (0xFFFD : Nat) = c.toNat := congrArg Char.toNat hget
      omega
    | some d =>
      obtain rfl : d = c := hget
      exact (of_mem_pieces hc bs).1 hd
  · intro h
    have hbyte : (UInt8.ofNat c.toNat).toNat = c.toNat := toNat_ofNat (by omega)
    obtain ⟨front, rest, rfl⟩ := List.append_of_mem h
    rw [decode_append_cons (by omega), hbyte, Char.ofNat_toNat]
    exact List.mem_append_right _ List.mem_cons_self

theorem pieces_some_ne_nil (p : Pending) (bs : Bytes) : pieces (some p) bs ≠ [] := by
  induction bs generalizing p with
  | nil => exact List.cons_ne_nil none []
  | cons b bs ih =>
    rw [pieces]
    dsimp only
    split_ifs
    · exact List.cons_ne_nil _ _
    · exact ih _
    · split <;> exact List.cons_ne_nil _ _

theorem decode_eq_nil_iff (bs : Bytes) : decode bs = [] ↔ bs = [] := by
  refine ⟨fun h => ?_, fun h => h ▸ decode_nil⟩
  cases bs with
  | nil => rfl
  | cons b bs =>
    have hpieces : pieces none (b :: bs) = [] := List.map_eq_nil_iff.1 h
    cases hstart : start b with
    | ok p =>
      rw [pieces_of_start_ok hstart] at hpieces
      exact absurd hpieces (pieces_some_ne_nil p bs)
    | error c =>
      rw [pieces_of_start_error hstart] at hpieces
      cases hpieces

end FileShell.Utf8
