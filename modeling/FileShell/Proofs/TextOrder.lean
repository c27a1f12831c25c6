import FileShell.Completion
import FileShell.Proofs.Utf8Codec
import Mathlib.Data.Char
import Mathlib.Data.List.Lex
import Mathlib.Tactic.Tauto

namespace FileShell

namespace Utf8

theorem ofNat_lt_ofNat_iff {k l : Nat} (hk : k < 256) (hl : l < 256) :
    UInt8.ofNat k < .ofNat l ↔ k < l := by
  rw [UInt8.lt_iff_toNat_lt, toNat_ofNat hk, toNat_ofNat hl]

theorem ofNat_eq_ofNat_iff {k l : Nat} (hk : k < 256) (hl : l < 256) :
    UInt8.ofNat k = .ofNat l ↔ k = l := by
  rw [← UInt8.toNat_inj, toNat_ofNat hk, toNat_ofNat hl]

/-- A byte decides between two characters before either of them ends. -/
theorem encodeChar_append_lt {c d : Char} (h : c < d) (s t : Bytes) :
    encodeChar c ++ s < encodeChar d ++ t := by
  have hlt : c.toNat < d.toNat := h
  have hd : d.toNat < 0x110000 := by
    have hvalid : d.toNat < 0xD800 ∨ 0xDFFF < d.toNat ∧ d.toNat < 0x110000 := d.valid
    omega
  unfold encodeChar
  dsimp only
  generalize c.toNat = m at hlt
  generalize d.toNat = n at hlt hd
  split_ifs
  all_goals
    simp only [List.cons_append, List.nil_append, List.cons_lt_cons_iff]
    repeat rw [ofNat_lt_ofNat_iff (by omega) (by omega)]
    repeat rw [ofNat_eq_ofNat_iff (by omega) (by omega)]
    omega

theorem encode_lt_of_lt {a b : Text} (h : a < b) : encode a < encode b := by
  induction a generalizing b with
  | nil =>
    cases b with
    | nil => exact absurd h (List.lt_irrefl [])
    | cons d b =>
      obtain ⟨e, es, he⟩ := List.exists_cons_of_ne_nil (encode_ne_nil (List.cons_ne_nil d b))
      rw [he]
      exact List.nil_lt_cons e es
  | cons c a ih =>
    cases b with
    | nil => exact absurd h (List.not_lt_nil _)
    | cons d b =>
      obtain hcd | ⟨rfl, hab⟩ := List.cons_lt_cons_iff.1 h
      · exact encodeChar_append_lt hcd (encode a) (encode b)
      · exact List.append_left_lt (ih hab)

theorem encode_injective {a b : Text} (h : encode a = encode b) : a = b := by
  rw [← decode_encode a, h, decode_encode]

theorem precedes_trans {a b c : Text} (hab : precedes a b = true) (hbc : precedes b c = true) :
    precedes a c = true :=
  decide_eq_true (List.le_trans (of_decide_eq_true hab) (of_decide_eq_true hbc))

theorem precedes_total (a b : Text) : (precedes a b || precedes b a) = true := by
  simpa [precedes] using List.le_total (encode a) (encode b)

theorem precedes_antisymm {a b : Text} (hab : precedes a b = true) (hba : precedes b a = true) :
    a = b :=
  encode_injective (List.le_antisymm (of_decide_eq_true hab) (of_decide_eq_true hba))

theorem pairwise_mergeSort {α : Type} {key : α → Text} {l : List α}
    (h : l.Pairwise fun a b => key a ≠ key b) :
    (l.mergeSort fun a b => precedes (key a) (key b)).Pairwise
      fun a b => encode (key a) < encode (key b) := by
  have hle := List.pairwise_mergeSort
    (fun (a b c : α) (hab : precedes (key a) (key b) = true) hbc => precedes_trans hab hbc)
    (fun a b => precedes_total (key a) (key b)) l
  have hne : (l.mergeSort fun a b => precedes (key a) (key b)).Pairwise fun a b => key a ≠ key b :=
    ((List.mergeSort_perm l _).pairwise_iff Ne.symm).2 h
  exact (hle.and hne).imp fun ⟨hle, hne⟩ =>
    Std.lt_of_le_of_ne (of_decide_eq_true hle) fun heq => hne (encode_injective heq)

end Utf8

namespace Completer

theorem mem_insertSorted {name other : Text} {names : List Text} :
    other ∈ insertSorted name names ↔ other = name ∨ other ∈ names := by
  induction names with
  | nil => simp [insertSorted]
  | cons first rest ih =>
    rw [insertSorted]
    split_ifs with heq hlt
    · rw [heq, List.mem_cons]
      tauto
    · rw [List.mem_cons]
    · rw [List.mem_cons, List.mem_cons, ih]
      tauto

theorem pairwise_insertSorted {name : Text} {names : List Text} (h : names.Pairwise (· < ·)) :
    (insertSorted name names).Pairwise (· < ·) := by
  induction names with
  | nil => exact List.pairwise_singleton _ name
  | cons first rest ih =>
    obtain ⟨hfirst, hrest⟩ := List.pairwise_cons.1 h
    rw [insertSorted]
    split_ifs with heq hlt
    · exact h
    · refine List.pairwise_cons.2 ⟨?_, h⟩
      intro other hother
      obtain rfl | hother := List.mem_cons.1 hother
      · exact hlt
      · exact hlt.trans (hfirst other hother)
    · refine List.pairwise_cons.2 ⟨?_, ih hrest⟩
      intro other hother
      obtain rfl | hother := mem_insertSorted.1 hother
      · exact lt_of_le_of_ne (not_lt.1 hlt) (Ne.symm heq)
      · exact hfirst other hother

theorem mem_sortNames {name : Text} {names : List Text} :
    name ∈ sortNames names ↔ name ∈ names := by
  induction names with
  | nil => rfl
  | cons first rest ih =>
    show name ∈ insertSorted first (sortNames rest) ↔ _
    rw [mem_insertSorted, ih, List.mem_cons]

theorem pairwise_sortNames (names : List Text) : (sortNames names).Pairwise (· < ·) := by
  induction names with
  | nil => exact List.Pairwise.nil
  | cons first rest ih => exact pairwise_insertSorted ih

end Completer
end FileShell
