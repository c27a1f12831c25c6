import FileShell.Text.Utf8
import Mathlib.Tactic.SplitIfs

namespace FileShell.Utf8

theorem toNat_ofNat {n : Nat} (h : n < 256) : (UInt8.ofNat n).toNat = n := by
  rw [UInt8.toNat_ofNat', Nat.mod_eq_of_lt h]

theorem pieces_last {low high value k : Nat} (hk : k < 0x40) (hlow : low ≤ 0x80 + k)
    (hhigh : 0x80 + k ≤ high) (rest : Bytes) :
    pieces (some ⟨1, low, high, value⟩) (.ofNat (0x80 + k) :: rest) =
      some (Char.ofNat (value * 0x40 + k)) :: pieces none rest := by
  have hbyte : (UInt8.ofNat (0x80 + k)).toNat = 0x80 + k := toNat_ofNat (by omega)
  have hbits : (0x80 + k) % 0x40 = k := by omega
  rw [pieces, hbyte, if_pos ⟨hlow, hhigh⟩, hbits]
  rfl

theorem pieces_next {due low high value k : Nat} (hk : k < 0x40) (hlow : low ≤ 0x80 + k)
    (hhigh : 0x80 + k ≤ high) (rest : Bytes) :
    pieces (some ⟨due + 2, low, high, value⟩) (.ofNat (0x80 + k) :: rest) =
      pieces (some ⟨due + 1, 0x80, 0xBF, value * 0x40 + k⟩) rest := by
  have hbyte : (UInt8.ofNat (0x80 + k)).toNat = 0x80 + k := toNat_ofNat (by omega)
  have hbits : (0x80 + k) % 0x40 = k := by omega
  have hdue : due + 2 ≠ 1 := by omega
  rw [pieces, hbyte, if_pos ⟨hlow, hhigh⟩, hbits]
  exact if_neg hdue

section Start

variable {n : Nat}

theorem start_one (h : n < 0x80) : start (.ofNat n) = .error (some (Char.ofNat n)) := by
  have hbyte : (UInt8.ofNat n).toNat = n := toNat_ofNat (by omega)
  rw [start, hbyte, if_pos h]

theorem start_two (hlow : 0x80 ≤ n) (hhigh : n < 0x800) :
    start (.ofNat (0xC0 + n / 0x40)) = .ok ⟨1, 0x80, 0xBF, n / 0x40⟩ := by
  have hbyte : (UInt8.ofNat (0xC0 + n / 0x40)).toNat = 0xC0 + n / 0x40 := toNat_ofNat (by omega)
  have hbits : 0xC0 + n / 0x40 - 0xC0 = n / 0x40 := by omega
  rw [start, hbyte, if_neg (by omega), if_neg (by omega), if_pos (by omega), hbits]

/-- Of three bytes, the second is kept from spelling what two could, and from the surrogates. -/
theorem start_three (hlow : 0x800 ≤ n) (hhigh : n < 0x10000) (hvalid : n < 0xD800 ∨ 0xDFFF < n) :
    ∃ low high, start (.ofNat (0xE0 + n / 0x1000)) = .ok ⟨2, low, high, n / 0x1000⟩ ∧
      low ≤ 0x80 + n / 0x40 % 0x40 ∧ 0x80 + n / 0x40 % 0x40 ≤ high := by
  have hbyte : (UInt8.ofNat (0xE0 + n / 0x1000)).toNat = 0xE0 + n / 0x1000 :=
    toNat_ofNat (by omega)
  have hbits : 0xE0 + n / 0x1000 - 0xE0 = n / 0x1000 := by omega
  unfold start
  rw [hbyte]
  by_cases hzero : n / 0x1000 = 0
  · exact ⟨0xA0, 0xBF, by rw [hzero]; rfl, by omega, by omega⟩
  · by_cases hthirteen : n / 0x1000 = 0xD
    · -- The surrogates begin in the middle of what begins with this byte.
      exact ⟨0x80, 0x9F, by rw [hthirteen]; rfl, by omega, by omega⟩
    · refine ⟨0x80, 0xBF, ?_, by omega, by omega⟩
      simp only [hbits]
      rw [if_neg (by omega), if_neg (by omega), if_neg (by omega), if_neg (by omega),
        if_neg (by omega), if_pos (by omega)]

/-- Of four bytes, the second is kept from spelling what three could, and from what is beyond the
last character. -/
theorem start_four (hlow : 0x10000 ≤ n) (hhigh : n < 0x110000) :
    ∃ low high, start (.ofNat (0xF0 + n / 0x40000)) = .ok ⟨3, low, high, n / 0x40000⟩ ∧
      low ≤ 0x80 + n / 0x1000 % 0x40 ∧ 0x80 + n / 0x1000 % 0x40 ≤ high := by
  have hbyte : (UInt8.ofNat (0xF0 + n / 0x40000)).toNat = 0xF0 + n / 0x40000 :=
    toNat_ofNat (by omega)
  have hbits : 0xF0 + n / 0x40000 - 0xF0 = n / 0x40000 := by omega
  unfold start
  rw [hbyte]
  by_cases hzero : n / 0x40000 = 0
  · exact ⟨0x90, 0xBF, by rw [hzero]; rfl, by omega, by omega⟩
  · by_cases hfour : n / 0x40000 = 4
    · exact ⟨0x80, 0x8F, by rw [hfour]; rfl, by omega, by omega⟩
    · refine ⟨0x80, 0xBF, ?_, by omega, by omega⟩
      simp only [hbits]
      rw [if_neg (by omega), if_neg (by omega), if_neg (by omega), if_neg (by omega),
        if_neg (by omega), if_neg (by omega), if_neg (by omega), if_pos (by omega)]

end Start

theorem pieces_of_start_ok {b : UInt8} {p : Pending} (h : start b = .ok p) (rest : Bytes) :
    pieces none (b :: rest) = pieces (some p) rest := by
  rw [pieces, h]

theorem pieces_of_start_error {b : UInt8} {c : Option Char} (h : start b = .error c)
    (rest : Bytes) : pieces none (b :: rest) = c :: pieces none rest := by
  rw [pieces, h]

/-- The bytes of a character are read as that character. -/
theorem pieces_encodeChar (c : Char) (rest : Bytes) :
    pieces none (encodeChar c ++ rest) = some c :: pieces none rest := by
  have hvalid : c.toNat < 0xD800 ∨ 0xDFFF < c.toNat ∧ c.toNat < 0x110000 := c.valid
  have hchar : Char.ofNat c.toNat = c := Char.ofNat_toNat c
  unfold encodeChar
  dsimp only
  generalize c.toNat = n at hvalid hchar ⊢
  subst hchar
  split_ifs with hone htwo hthree
  · exact pieces_of_start_error (start_one hone) rest
  · have hvalue : n / 0x40 * 0x40 + n % 0x40 = n := by omega
    rw [List.cons_append, List.singleton_append, pieces_of_start_ok (start_two (by omega) htwo),
      pieces_last (by omega) (by omega) (by omega), hvalue]
  · have hrange : n < 0xD800 ∨ 0xDFFF < n := hvalid.imp_right And.left
    obtain ⟨low, high, hstart, hlow, hhigh⟩ := start_three (by omega) hthree hrange
    have hvalue : (n / 0x1000 * 0x40 + n / 0x40 % 0x40) * 0x40 + n % 0x40 = n := by omega
    rw [List.cons_append, List.cons_append, List.singleton_append, pieces_of_start_ok hstart,
      pieces_next (by omega) hlow hhigh, pieces_last (by omega) (by omega) (by omega), hvalue]
  · obtain ⟨low, high, hstart, hlow, hhigh⟩ := start_four (by omega : 0x10000 ≤ n) (by omega)
    have hvalue : ((n / 0x40000 * 0x40 + n / 0x1000 % 0x40) * 0x40 + n / 0x40 % 0x40) * 0x40 +
        n % 0x40 = n := by omega
    rw [List.cons_append, List.cons_append, List.cons_append, List.singleton_append,
      pieces_of_start_ok hstart, pieces_next (by omega) hlow hhigh,
      pieces_next (by omega) (by omega) (by omega), pieces_last (by omega) (by omega) (by omega),
      hvalue]

theorem pieces_encode (t : Text) : pieces none (encode t) = t.map some := by
  induction t with
  | nil => rfl
  | cons c t ih =>
    have hcons : encode (c :: t) = encodeChar c ++ encode t := rfl
    rw [hcons, pieces_encodeChar, ih, List.map_cons]

@[simp] theorem decode_encode (t : Text) : decode (encode t) = t := by
  rw [decode, pieces_encode, List.map_map]
  exact List.map_id t

@[simp] theorem decode?_encode (t : Text) : decode? (encode t) = some t := by
  have hall (t : Text) : (t.map some).mapM id = some t := by
    induction t with
    | nil => rfl
    | cons c t ih =>
      rw [List.map_cons, List.mapM_cons, ih]
      rfl
  rw [decode?, pieces_encode, hall]

theorem encodeChar_ne_nil (c : Char) : encodeChar c ≠ [] := by
  unfold encodeChar
  dsimp only
  split_ifs <;> exact List.cons_ne_nil _ _

theorem encode_ne_nil {t : Text} (h : t ≠ []) : encode t ≠ [] := by
  obtain ⟨c, t, rfl⟩ := List.exists_cons_of_ne_nil h
  exact List.append_ne_nil_of_left_ne_nil (encodeChar_ne_nil c) _

theorem encodeChar_of_lt {c : Char} (h : c.toNat < 0x80) : encodeChar c = [.ofNat c.toNat] := by
  rw [encodeChar, if_pos h]

theorem mem_encodeChar_iff {c : Char} (hc : c.toNat < 0x80) (d : Char) :
    .ofNat c.toNat ∈ encodeChar d ↔ c = d := by
  have hvalid : d.toNat < 0xD800 ∨ 0xDFFF < d.toNat ∧ d.toNat < 0x110000 := d.valid
  have hmem {k : Nat} (hk : k < 256) : UInt8.ofNat c.toNat = .ofNat k ↔ c.toNat = k := by
    rw [← UInt8.toNat_inj, toNat_ofNat hk, toNat_ofNat (by omega)]
  rw [← Char.toNat_inj]
  unfold encodeChar
  dsimp only
  generalize d.toNat = n at hvalid ⊢
  split_ifs
  · rw [List.mem_singleton, hmem (by omega)]
  all_goals
    simp only [List.mem_cons, List.not_mem_nil, or_false]
    repeat rw [hmem (by omega)]
    omega

theorem mem_encode_iff {c : Char} (hc : c.toNat < 0x80) (t : Text) :
    .ofNat c.toNat ∈ encode t ↔ c ∈ t := by
  simp only [encode, List.mem_flatMap, mem_encodeChar_iff hc, exists_eq_right']

end FileShell.Utf8
