import FileShell.Proofs.Utf8Codec
import Mathlib.Algebra.Group.Nat.Defs

namespace FileShell.Utf8

/-- The last bytes of a character, each for six bits of its number. -/
def continuation : Nat → Nat → Bytes
  | 0, _ => []
  | due + 1, v => .ofNat (0x80 + v / 0x40 ^ due % 0x40) :: continuation due v

/-- The bytes `got` begin every character that the one under way can become. -/
structure Owes (p : Pending) (got : Bytes) : Prop where
  due : 0 < p.due
  low : 0x80 ≤ p.low
  high : p.high ≤ 0xBF
  begun : ∀ v, v / 0x40 ^ p.due = p.value → p.low ≤ 0x80 + v / 0x40 ^ (p.due - 1) % 0x40 →
    0x80 + v / 0x40 ^ (p.due - 1) % 0x40 ≤ p.high →
    encodeChar (Char.ofNat v) = got ++ continuation p.due v

theorem toNat_charOfNat {v : Nat} (h : v < 0xD800 ∨ 0xDFFF < v ∧ v < 0x110000) :
    (Char.ofNat v).toNat = v := by
  have hvalid : v.isValidChar := h
  rw [Char.ofNat, dif_pos hvalid]
  rfl

theorem owes_one {value : Nat} (hlow : 2 ≤ value) (hhigh : value < 0x20) :
    Owes ⟨1, 0x80, 0xBF, value⟩ [.ofNat (0xC0 + value)] := by
  refine ⟨Nat.one_pos, Nat.le_refl _, Nat.le_refl _, fun v hvalue _ _ => ?_⟩
  simp only [Nat.reducePow] at hvalue
  have hchar : (Char.ofNat v).toNat = v := toNat_charOfNat (by omega)
  rw [encodeChar, hchar, if_neg (by omega), if_pos (by omega), hvalue]
  simp [continuation]

theorem owes_two {value low high : Nat} (hvalue : value < 0x10) (hlow : 0x80 ≤ low)
    (hhigh : high ≤ 0xBF) (hzero : value = 0 → 0xA0 ≤ low) (hthirteen : value = 0xD → high ≤ 0x9F) :
    Owes ⟨2, low, high, value⟩ [.ofNat (0xE0 + value)] := by
  refine ⟨Nat.two_pos, hlow, hhigh, fun v hv hmore hless => ?_⟩
  simp only [Nat.reducePow, Nat.reduceSub] at hv hmore hless
  have hchar : (Char.ofNat v).toNat = v := toNat_charOfNat (by omega)
  rw [encodeChar, hchar, if_neg (by omega), if_neg (by omega), if_pos (by omega), hv]
  simp [continuation]

theorem owes_three {value low high : Nat} (hvalue : value ≤ 4) (hlow : 0x80 ≤ low)
    (hhigh : high ≤ 0xBF) (hzero : value = 0 → 0x90 ≤ low) (hfour : value = 4 → high ≤ 0x8F) :
    Owes ⟨3, low, high, value⟩ [.ofNat (0xF0 + value)] := by
  refine ⟨Nat.succ_pos 2, hlow, hhigh, fun v hv hmore hless => ?_⟩
  simp only [Nat.reducePow, Nat.reduceSub] at hv hmore hless
  have hchar : (Char.ofNat v).toNat = v := toNat_charOfNat (by omega)
  rw [encodeChar, hchar, if_neg (by omega), if_neg (by omega), if_neg (by omega), hv]
  simp [continuation]

theorem owes_of_start {b : UInt8} {p : Pending} (h : start b = .ok p) : Owes p [b] := by
  have hbyte := b.toNat_lt
  have hlead {lead value : Nat} {p : Pending} (hsum : lead + value = b.toNat)
      (howes : Owes p [.ofNat (lead + value)]) : Owes p [b] := by
    rwa [hsum, UInt8.ofNat_toNat] at howes
  unfold start at h
  dsimp only at h
  split_ifs at h with hascii hnone htwo hE0 hED hthree hF0 hfour hF4 <;> obtain rfl := Except.ok.inj h
  · exact hlead (by omega) (owes_one (by omega) (by omega))
  · exact hlead (by omega) (owes_two (by omega) (by omega) (by omega) (by omega) (by omega))
  · exact hlead (by omega) (owes_two (by omega) (by omega) (by omega) (by omega) (by omega))
  · exact hlead (by omega) (owes_two (by omega) (by omega) (by omega) (by omega) (by omega))
  · exact hlead (by omega) (owes_three (by omega) (by omega) (by omega) (by omega) (by omega))
  · exact hlead (by omega) (owes_three (by omega) (by omega) (by omega) (by omega) (by omega))
  · exact hlead (by omega) (owes_three (by omega) (by omega) (by omega) (by omega) (by omega))

theorem encodeChar_of_start {b : UInt8} {c : Char} (h : start b = .error (some c)) :
    encodeChar c = [b] := by
  unfold start at h
  dsimp only at h
  split_ifs at h with hascii
  · obtain rfl : Char.ofNat b.toNat = c := by simpa using h
    have hchar : (Char.ofNat b.toNat).toNat = b.toNat := toNat_charOfNat (by omega)
    rw [encodeChar_of_lt (by omega), hchar, UInt8.ofNat_toNat]
  all_goals cases h

/-- The byte that comes next brings the character under way one byte further. -/
theorem Owes.next {p : Pending} {got : Bytes} (h : Owes p got) {b : UInt8} (hlow : p.low ≤ b.toNat)
    (hhigh : b.toNat ≤ p.high) :
    let value := p.value * 0x40 + b.toNat % 0x40
    (p.due = 1 → encodeChar (Char.ofNat value) = got ++ [b]) ∧
      (p.due ≠ 1 → Owes ⟨p.due - 1, 0x80, 0xBF, value⟩ (got ++ [b])) := by
  obtain ⟨hdue, hlow', hhigh', hbegun⟩ := h
  obtain ⟨due, hsucc⟩ := Nat.exists_eq_add_one.2 hdue
  have hbits : 0x80 + b.toNat % 0x40 = b.toNat := by omega
  have hstep {v : Nat} (hv : v / 0x40 ^ due = p.value * 0x40 + b.toNat % 0x40) :
      encodeChar (Char.ofNat v) = (got ++ [b]) ++ continuation due v := by
    have hlast : v / 0x40 ^ due % 0x40 = b.toNat % 0x40 := by omega
    have hfirst : v / 0x40 ^ (due + 1) = p.value := by
      rw [Nat.pow_succ, ← Nat.div_div_eq_div_mul]
      omega
    rw [hsucc, Nat.add_sub_cancel] at hbegun
    rw [hbegun v hfirst (by omega) (by omega), continuation, hlast, hbits, UInt8.ofNat_toNat,
      List.append_assoc, List.singleton_append]
  refine ⟨fun hone => ?_, fun hmore => ⟨by simp only; omega, Nat.le_refl _, Nat.le_refl _,
    fun v hv _ _ => ?_⟩⟩
  · obtain rfl : due = 0 := by omega
    have h := @hstep (p.value * 0x40 + b.toNat % 0x40) (by simp)
    rwa [continuation, List.append_nil] at h
  · simp only [hsucc, Nat.add_sub_cancel] at hv ⊢
    exact hstep hv

theorem encode_of_pieces (bs : Bytes) :
    (∀ t, pieces none bs = t.map some → encode t = bs) ∧
    ∀ p got t, Owes p got → pieces (some p) bs = t.map some → encode t = got ++ bs := by
  induction bs with
  | nil =>
    refine ⟨fun t ht => ?_, fun p got t _ ht => ?_⟩
    · obtain rfl : t = [] := by simpa [pieces] using ht.symm
      rfl
    · cases t <;> simp [pieces] at ht
  | cons b bs ih =>
    obtain ⟨hwhole, hpending⟩ := ih
    refine ⟨fun t ht => ?_, fun p got t howes ht => ?_⟩
    · cases hstart : start b with
      | ok p =>
        rw [pieces_of_start_ok hstart] at ht
        exact hpending p [b] t (owes_of_start hstart) ht
      | error c =>
        rw [pieces_of_start_error hstart] at ht
        obtain ⟨d, rest, rfl, rfl, hrest⟩ := List.map_eq_cons_iff.1 ht.symm
        rw [encode, List.flatMap_cons, encodeChar_of_start hstart]
        exact congrArg (b :: ·) (hwhole rest hrest.symm)
    · rw [pieces] at ht
      split_ifs at ht with hin hone
      · obtain ⟨d, rest, rfl, hd, hrest⟩ := List.map_eq_cons_iff.1 ht.symm
        obtain rfl := Option.some.inj hd
        rw [encode, List.flatMap_cons, (howes.next hin.1 hin.2).1 hone, List.append_assoc]
        exact congrArg (got ++ b :: ·) (hwhole rest hrest.symm)
      · have hencode := hpending _ _ t ((howes.next hin.1 hin.2).2 hone) ht
        rwa [List.append_assoc] at hencode
      · cases hstart : start b <;> rw [hstart] at ht <;> cases t <;> simp at ht

theorem encode_of_decode? {bs : Bytes} {t : Text} (h : decode? bs = some t) : encode t = bs := by
  refine (encode_of_pieces bs).1 t ?_
  rw [decode?] at h
  generalize pieces none bs = cs at h ⊢
  induction cs generalizing t with
  | nil =>
    obtain rfl : [] = t := Option.some.inj h
    rfl
  | cons c cs ih =>
    simp only [List.mapM_cons, id, Option.bind_eq_bind, Option.bind_eq_some_iff, Option.pure_def,
      Option.some.injEq] at h
    obtain ⟨d, rfl, rest, hrest, rfl⟩ := h
    rw [List.map_cons, ih hrest]

end FileShell.Utf8
