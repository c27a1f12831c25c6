import FileShell.Search
import Mathlib.Data.List.Sort

namespace FileShell

theorem Text.occursIn_iff (pattern t : Text) : pattern.occursIn t = true ↔ pattern <:+: t := by
  induction t with
  | nil => simp [Text.occursIn, List.isEmpty_iff]
  | cons c t ih =>
    rw [Text.occursIn, Bool.or_eq_true, List.isPrefixOf_iff_prefix, ih, List.infix_cons_iff]

/-- A list of everything with a property, in strictly increasing order of the places it belongs to. -/
structure Enumerates {α : Type} (key : α → Place) (l : List α) (P : α → Prop) : Prop where
  sorted : l.Pairwise fun a b => key a < key b
  mem : ∀ a, a ∈ l ↔ P a

namespace Enumerates

variable {α : Type} {key : α → Place} {l m : List α} {P Q R : α → Prop}

theorem eq (hl : Enumerates key l P) (hm : Enumerates key m P) : l = m := by
  have : Std.Irrefl fun a b => key a < key b := ⟨fun a => List.lt_irrefl (key a)⟩
  have : Std.Antisymm fun a b => key a < key b :=
    ⟨fun _ _ hab hba => absurd hba (List.lt_asymm hab)⟩
  exact hl.sorted.eq_of_mem_iff hm.sorted fun a => (hl.mem a).trans (hm.mem a).symm

theorem congr (hl : Enumerates key l P) (h : ∀ a, P a ↔ Q a) : Enumerates key l Q :=
  ⟨hl.sorted, fun a => (hl.mem a).trans (h a)⟩

theorem nil (h : ∀ a, ¬ P a) : Enumerates key [] P :=
  ⟨.nil, fun a => iff_of_false List.not_mem_nil (h a)⟩

theorem singleton {a : α} (h : ∀ b, P b ↔ b = a) : Enumerates key [a] P :=
  ⟨List.pairwise_singleton _ a, fun b => List.mem_singleton.trans (h b).symm⟩

theorem append (hl : Enumerates key l P) (hm : Enumerates key m Q)
    (horder : ∀ a b, P a → Q b → key a < key b) (h : ∀ a, R a ↔ P a ∨ Q a) :
    Enumerates key (l ++ m) R := by
  refine ⟨List.pairwise_append.2 ⟨hl.sorted, hm.sorted, ?_⟩, ?_⟩
  · intro a ha b hb
    exact horder a b ((hl.mem a).1 ha) ((hm.mem b).1 hb)
  · intro a
    rw [List.mem_append, hl.mem, hm.mem, h]

theorem map {β : Type} {key' : β → Place} {l : List β} {P : β → Prop} (hl : Enumerates key' l P)
    {f : β → α} {n : FileName} (hkey : ∀ a, key (f a) = n :: key' a)
    (h : ∀ a, R a ↔ ∃ b, P b ∧ f b = a) : Enumerates key (l.map f) R := by
  refine ⟨List.pairwise_map.2 (hl.sorted.imp fun hab => ?_), ?_⟩
  · rw [hkey, hkey]
    exact List.cons_lt_cons_iff.2 (.inr ⟨rfl, hab⟩)
  · intro a
    simp only [List.mem_map, hl.mem, h]

end Enumerates

/-- The path of a place below another path. -/
def Path.below (root : Path) (names : Place) : Path := names.foldl (fun path n => path.join ⟨n⟩) root

namespace Findings

/-- Findings are exactly the places below a path with the one property and the faults with the other,
each once and in order. -/
def Tells (f : Findings) (path : Path) (Hit : Place → Prop) (Skip : Place × Fault → Prop) : Prop :=
  ∃ hits skipped, Enumerates id hits Hit ∧ Enumerates Prod.fst skipped Skip ∧
    f = ⟨hits.map path.below, skipped.map fun s => (path.below s.1, s.2)⟩

variable {f g : Findings} {path : Path} {Hit Hit' Hit'' : Place → Prop}
  {Skip Skip' Skip'' : Place × Fault → Prop}

theorem Tells.congr (hf : f.Tells path Hit Skip) (hhit : ∀ p, Hit p ↔ Hit' p)
    (hskip : ∀ s, Skip s ↔ Skip' s) : f.Tells path Hit' Skip' := by
  obtain ⟨hits, skipped, hhits, hskipped, rfl⟩ := hf
  exact ⟨hits, skipped, hhits.congr hhit, hskipped.congr hskip, rfl⟩

theorem Tells.eq (hf : f.Tells path Hit Skip) (hg : g.Tells path Hit Skip) : f = g := by
  obtain ⟨hits, skipped, hhits, hskipped, rfl⟩ := hf
  obtain ⟨hits', skipped', hhits', hskipped', rfl⟩ := hg
  rw [hhits.eq hhits', hskipped.eq hskipped']

theorem Tells.append (hf : f.Tells path Hit Skip) (hg : g.Tells path Hit' Skip')
    (hhit : ∀ p, Hit'' p ↔ Hit p ∨ Hit' p) (hskip : ∀ s, Skip'' s ↔ Skip s ∨ Skip' s)
    (hhits : ∀ p q, Hit p → Hit' q → p < q) (hskips : ∀ s t, Skip s → Skip' t → s.1 < t.1) :
    (f.append g).Tells path Hit'' Skip'' := by
  obtain ⟨hits, skipped, hf, hf', rfl⟩ := hf
  obtain ⟨hits', skipped', hg, hg', rfl⟩ := hg
  exact ⟨hits ++ hits', skipped ++ skipped', hf.append hg hhits hhit,
    hf'.append hg' hskips hskip, by simp [Findings.append]⟩

theorem Tells.beneath {n : FileName} (hf : f.Tells (path.join ⟨n⟩) Hit Skip)
    (hhit : ∀ p, Hit' p ↔ ∃ q, Hit q ∧ n :: q = p)
    (hskip : ∀ s, Skip' s ↔ ∃ t, Skip t ∧ (n :: t.1, t.2) = s) : f.Tells path Hit' Skip' := by
  obtain ⟨hits, skipped, hhits, hskipped, rfl⟩ := hf
  refine ⟨hits.map (n :: ·), skipped.map fun s => (n :: s.1, s.2), hhits.map (fun _ => rfl) hhit,
    hskipped.map (fun _ => rfl) hskip, ?_⟩
  simp only [List.map_map]
  rfl

/-- Findings below entries of different names, joined in the order of the names. -/
theorem tells_foldr_append {parts : List (FileName × Findings)}
    (hsorted : parts.Pairwise fun a b => a.1 < b.1)
    (hparts : ∀ part ∈ parts, part.2.Tells path (fun p => p.head? = some part.1 ∧ Hit p)
      (fun s => s.1.head? = some part.1 ∧ Skip s)) :
    ((parts.map (·.2)).foldr append none).Tells path
      (fun p => (∃ part ∈ parts, p.head? = some part.1) ∧ Hit p)
      (fun s => (∃ part ∈ parts, s.1.head? = some part.1) ∧ Skip s) := by
  induction parts with
  | nil =>
    exact ⟨[], [], .nil (by simp), .nil (by simp), rfl⟩
  | cons part parts ih =>
    obtain ⟨hbelow, hsorted⟩ := List.pairwise_cons.1 hsorted
    obtain ⟨hpart, hparts⟩ := List.forall_mem_cons.1 hparts
    -- Between places below different entries the first names decide.
    have horder {p q : Place} {other : FileName × Findings} (hp : p.head? = some part.1)
        (hother : other ∈ parts) (hq : q.head? = some other.1) : p < q := by
      obtain ⟨p', rfl⟩ := List.head?_eq_some_iff.1 hp
      obtain ⟨q', rfl⟩ := List.head?_eq_some_iff.1 hq
      exact List.cons_lt_cons_iff.2 (.inl (hbelow other hother))
    refine hpart.append (ih hsorted hparts) (fun p => ?_) (fun s => ?_) ?_ ?_
    · simp only [List.mem_cons, exists_eq_or_imp]
      exact or_and_right
    · simp only [List.mem_cons, exists_eq_or_imp]
      exact or_and_right
    · rintro p q ⟨hp, -⟩ ⟨⟨other, hother, hq⟩, -⟩
      exact horder hp hother hq
    · rintro s t ⟨hs, -⟩ ⟨⟨other, hother, ht⟩, -⟩
      exact horder hs hother ht

theorem pairwise_mergeSort {α : Type} {parts : List (FileName × α)} (h : (parts.map (·.1)).Nodup) :
    (parts.mergeSort fun a b => decide (a.1 ≤ b.1)).Pairwise fun a b => a.1 < b.1 := by
  have hle := List.pairwise_mergeSort
    (fun (a b c : FileName × α) (hab : decide (a.1 ≤ b.1) = true) hbc =>
      decide_eq_true (List.le_trans (of_decide_eq_true hab) (of_decide_eq_true hbc)))
    (fun a b => by simpa using List.le_total a.1 b.1) parts
  have hperm := List.mergeSort_perm parts fun a b => decide (a.1 ≤ b.1)
  have hne : (parts.mergeSort fun a b => decide (a.1 ≤ b.1)).Pairwise fun a b => a.1 ≠ b.1 :=
    List.pairwise_map.1 ((hperm.map _).nodup_iff.2 h)
  exact (hle.and hne).imp fun ⟨hle, hne⟩ => Std.lt_of_le_of_ne (of_decide_eq_true hle) hne

theorem tells_inNameOrder {parts : List (FileName × Findings)} (h : (parts.map (·.1)).Nodup)
    (hparts : ∀ part ∈ parts, part.2.Tells path (fun p => p.head? = some part.1 ∧ Hit p)
      (fun s => s.1.head? = some part.1 ∧ Skip s))
    (hhit : ∀ p, Hit p → ∃ part ∈ parts, p.head? = some part.1)
    (hskip : ∀ s, Skip s → ∃ part ∈ parts, s.1.head? = some part.1) :
    (inNameOrder parts).Tells path Hit Skip := by
  have hmem {part : FileName × Findings} :
      (part ∈ parts.mergeSort fun a b => decide (a.1 ≤ b.1)) ↔ part ∈ parts := List.mem_mergeSort
  refine (tells_foldr_append (pairwise_mergeSort h) fun part hpart => hparts part
    (hmem.1 hpart)).congr (fun p => ?_) fun s => ?_
  · simp only [hmem, and_iff_right_iff_imp]
    exact hhit p
  · simp only [hmem, and_iff_right_iff_imp]
    exact hskip s

end Findings
end FileShell
