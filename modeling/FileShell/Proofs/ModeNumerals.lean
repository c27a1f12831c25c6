import FileShell.Proofs.CopyContents
import Mathlib.Data.Nat.Digits.Defs
import Mathlib.Tactic.Ring

namespace FileShell

namespace Mode

def IsOctal (c : Char) : Prop := '0' ≤ c ∧ c ≤ '7'

instance : DecidablePred IsOctal := fun c => inferInstanceAs (Decidable ('0' ≤ c ∧ c ≤ '7'))

/-- The number that octal digits write; the last of them counts ones. -/
def octalValue (digits : Text) : Nat :=
  Nat.ofDigits 8 (digits.reverse.map fun c => c.toNat - '0'.toNat)

/-- Octal digits, however many, that write a number of at most twelve bits. -/
structure IsNumeral (t : Text) : Prop where
  nonempty : t ≠ []
  octal : ∀ c ∈ t, IsOctal c
  bounded : octalValue t ≤ 0o7777

theorem octalDigit?_eq_some_iff {c : Char} {d : Nat} :
    octalDigit? c = some d ↔ IsOctal c ∧ d = c.toNat - '0'.toNat := by
  unfold octalDigit? IsOctal
  split_ifs with hc
  · simp [hc, eq_comm]
  · simp [hc]

theorem mapM_octalDigit?_eq_some_iff {t : Text} {ds : List Nat} :
    t.mapM octalDigit? = some ds ↔
      (∀ c ∈ t, IsOctal c) ∧ ds = t.map fun c => c.toNat - '0'.toNat := by
  induction t generalizing ds with
  | nil => simp [eq_comm]
  | cons c t ih =>
    simp only [List.mapM_cons, Option.bind_eq_bind, Option.bind_eq_some_iff, ih,
      octalDigit?_eq_some_iff, Option.pure_def, Option.some.injEq, List.forall_mem_cons,
      List.map_cons]
    constructor
    · rintro ⟨_, ⟨hc, rfl⟩, _, ⟨ht, rfl⟩, rfl⟩
      exact ⟨⟨hc, ht⟩, rfl⟩
    · rintro ⟨⟨hc, ht⟩, rfl⟩
      exact ⟨_, ⟨hc, rfl⟩, _, ⟨ht, rfl⟩, rfl⟩

theorem foldl_digits (ds : List Nat) :
    ds.foldl (fun n d => n * 8 + d) 0 = Nat.ofDigits 8 ds.reverse := by
  rw [Nat.ofDigits_eq_foldr, List.foldr_reverse]
  congr 1
  funext n d
  rw [Nat.cast_id]
  ring

theorem value?_eq_some_iff {t : Text} {n : Nat} :
    value? t = some n ↔ (∀ c ∈ t, IsOctal c) ∧ n = octalValue t := by
  have hvalue : ∀ ds : List Nat, ds = t.map (fun c => c.toNat - '0'.toNat) →
      ds.foldl (fun n d => n * 8 + d) 0 = octalValue t := by
    rintro ds rfl
    rw [foldl_digits, octalValue, List.map_reverse]
  unfold value?
  simp only [Option.bind_eq_bind, Option.bind_eq_some_iff, mapM_octalDigit?_eq_some_iff,
    Option.pure_def, Option.some.injEq]
  constructor
  · rintro ⟨ds, ⟨ht, hds⟩, rfl⟩
    exact ⟨ht, hvalue ds hds⟩
  · rintro ⟨ht, rfl⟩
    exact ⟨_, ⟨ht, rfl⟩, hvalue _ rfl⟩

/-- The mode that digits write, without any sign before them. -/
def ofDigits? (digits : Text) : Option Mode :=
  if digits.isEmpty then none
  else
    match value? digits with
    | some n => if n ≤ greatest then some (BitVec.ofNat 12 n) else none
    | none => none

theorem ofDigits?_eq_some_iff {digits : Text} {m : Mode} :
    ofDigits? digits = some m ↔ IsNumeral digits ∧ m.toNat = octalValue digits := by
  unfold ofDigits?
  constructor
  · intro h
    split_ifs at h with hempty
    split at h
    · next n hvalue =>
      split_ifs at h with hbound
      obtain ⟨hoctal, rfl⟩ := value?_eq_some_iff.1 hvalue
      obtain rfl := Option.some.inj h
      refine ⟨⟨by simpa using hempty, hoctal, hbound⟩, ?_⟩
      rw [BitVec.toNat_ofNat]
      exact Nat.mod_eq_of_lt (Nat.lt_succ_of_le hbound)
    · cases h
  · rintro ⟨⟨hsome, hoctal, hbound⟩, hm⟩
    have hvalue : value? digits = some (octalValue digits) := value?_eq_some_iff.2 ⟨hoctal, rfl⟩
    have hfits : octalValue digits ≤ greatest := hbound
    rw [if_neg (by simpa using hsome), hvalue]
    dsimp only
    rw [if_pos hfits, ← hm, BitVec.ofNat_toNat, BitVec.setWidth_eq]

theorem parse?_plus (digits : Text) : parse? ('+' :: digits) = ofDigits? digits := rfl

theorem parse?_of_head {t : Text} (h : ∀ digits, t ≠ '+' :: digits) : parse? t = ofDigits? t := by
  unfold parse?
  split
  · exact absurd rfl (h _)
  · rfl

theorem IsNumeral.ne_plus {t : Text} (h : IsNumeral t) (digits : Text) : t ≠ '+' :: digits := by
  rintro rfl
  exact absurd (h.octal '+' List.mem_cons_self) (by decide)

theorem parse?_eq_some_iff {t : Text} {m : Mode} :
    parse? t = some m ↔
      (IsNumeral t ∧ m.toNat = octalValue t) ∨
        ∃ digits, t = '+' :: digits ∧ IsNumeral digits ∧ m.toNat = octalValue digits := by
  by_cases hplus : ∃ digits, t = '+' :: digits
  · obtain ⟨digits, rfl⟩ := hplus
    rw [parse?_plus, ofDigits?_eq_some_iff]
    constructor
    · exact fun h => .inr ⟨digits, rfl, h⟩
    · rintro (⟨h, -⟩ | ⟨_, hsame, h⟩)
      · exact absurd rfl (h.ne_plus digits)
      · obtain rfl := (List.cons.inj hsame).2
        exact h
  · have hhead : ∀ digits, t ≠ '+' :: digits := fun digits h => hplus ⟨digits, h⟩
    rw [parse?_of_head hhead, ofDigits?_eq_some_iff]
    constructor
    · exact .inl
    · rintro (h | ⟨digits, h, -⟩)
      · exact h
      · exact absurd h (hhead digits)

end Mode

namespace Command

open Mode

variable {permissions : Option PermissionControl} {w : World} {raw : Text} {args : List Text}

theorem runChmod_of_unreadable (h : parse? raw = none) :
    (runChmod permissions w (raw :: args)).world = w ∧
      (permissions.isSome → args ≠ [] →
        (runChmod permissions w (raw :: args)).verdict = .failed (.invalidMode raw)) := by
  unfold runChmod
  cases permissions with
  | none => exact ⟨rfl, nofun⟩
  | some control =>
    cases args with
    | nil => exact ⟨rfl, fun _ hnil => absurd rfl hnil⟩
    | cons target rest =>
      dsimp only
      rw [h]
      exact ⟨rfl, fun _ _ => rfl⟩

/-- A text is read as a mode exactly if it is a numeral, or a numeral behind one plus sign, and then its
value is the mode. `chmod` refuses any other text by name, if it can change modes and is given a path,
and changes nothing. -/
theorem chmod_mode_exact (t : Text) :
    (∀ m, parse? t = some m ↔
      (IsNumeral t ∧ m.toNat = octalValue t) ∨
        ∃ digits, t = '+' :: digits ∧ IsNumeral digits ∧ m.toNat = octalValue digits) ∧
      ((¬ IsNumeral t ∧ ∀ digits, t = '+' :: digits → ¬ IsNumeral digits) →
        ∀ (s : Surroundings) (w : World) (args : List Text),
          let e := execute s w chmod.name.toList (t :: args)
          e.world = w ∧
            (s.permissions.isSome → args ≠ [] → e.verdict = .failed (.invalidMode t))) := by
  refine ⟨fun m => parse?_eq_some_iff, fun ⟨hnot, hplus⟩ s w args => ?_⟩
  have hnone : parse? t = none := by
    refine Option.eq_none_iff_forall_ne_some.2 fun m hm => ?_
    obtain ⟨hnumeral, -⟩ | ⟨digits, ht, hnumeral, -⟩ := parse?_eq_some_iff.1 hm
    · exact hnot hnumeral
    · exact hplus digits ht hnumeral
  obtain ⟨hworld, hverdict⟩ := execute_name s w (t :: args) chmod
  dsimp only
  rw [hworld, hverdict]
  exact runChmod_of_unreadable hnone

/-- `+7` is no numeral, and yet a file gets the mode 7 by it. -/
theorem chmod_takes_plus_sign :
    let e := execute ⟨some .native, .universal⟩ besideFile chmod.name.toList [['+', '7'], ['a']]
    ¬ IsNumeral ['+', '7'] ∧ e.verdict = .done .stay ∧
      besideFile.files.item? [[0x61]] = some (.leaf 0 (.file [0x78]) 0o644#12) ∧
      e.world.files.item? [[0x61]] = some (.leaf 0 (.file [0x78]) 0o007#12) := by
  intro e
  refine ⟨fun h => h.ne_plus ['7'] rfl, ?_⟩
  decide +kernel

end Command
end FileShell
