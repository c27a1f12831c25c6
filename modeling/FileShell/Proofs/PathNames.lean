import FileShell.FileSystem.Walk
import Mathlib.Data.List.Basic
import Mathlib.Tactic.SplitIfs

namespace FileShell

/-- What a name can be that stands between two slashes. -/
structure FileName.IsPiece (n : FileName) : Prop where
  ne_nil : n ≠ []
  noSlash : Path.slash ∉ n
  ne_dot : n ≠ Path.dot
  ne_dotDot : n ≠ Path.dotDot

/-- What a name in a directory can be. -/
structure FileName.IsProper (n : FileName) : Prop extends n.IsPiece where
  noNul : (0 : UInt8) ∉ n
  short : n.length ≤ FileSystem.nameLimit

instance (n : FileName) : Decidable n.IsPiece :=
  decidable_of_iff (n ≠ [] ∧ Path.slash ∉ n ∧ n ≠ Path.dot ∧ n ≠ Path.dotDot)
    ⟨fun ⟨h₁, h₂, h₃, h₄⟩ => ⟨h₁, h₂, h₃, h₄⟩, fun ⟨h₁, h₂, h₃, h₄⟩ => ⟨h₁, h₂, h₃, h₄⟩⟩

instance (n : FileName) : Decidable n.IsProper :=
  decidable_of_iff (n.IsPiece ∧ (0 : UInt8) ∉ n ∧ n.length ≤ FileSystem.nameLimit)
    ⟨fun ⟨h₁, h₂, h₃⟩ => ⟨h₁, h₂, h₃⟩, fun ⟨h₁, h₂, h₃⟩ => ⟨h₁, h₂, h₃⟩⟩

namespace Path

theorem piecesFrom_append {name : Bytes} (hname : slash ∉ name) (piece rest : Bytes) :
    piecesFrom piece (name ++ rest) = piecesFrom (name.reverse ++ piece) rest := by
  induction name generalizing piece with
  | nil => rfl
  | cons b name ih =>
    rw [List.mem_cons, not_or] at hname
    rw [List.cons_append, piecesFrom, if_neg (Ne.symm hname.1), ih hname.2]
    simp

theorem piecesFrom_append_slash (piece bs rest : Bytes) :
    piecesFrom piece (bs ++ slash :: rest) = piecesFrom piece bs ++ piecesFrom [] rest := by
  induction bs generalizing piece with
  | nil =>
    rw [List.nil_append, piecesFrom, piecesFrom, if_pos rfl]
    split_ifs <;> rfl
  | cons b bs ih =>
    rw [List.cons_append, piecesFrom, piecesFrom]
    split_ifs
    · exact ih []
    · rw [ih, List.cons_append]
    · exact ih (b :: piece)

theorem piecesFrom_of_slash_notMem {piece : Bytes} (hne : piece ≠ []) (hslash : slash ∉ piece) :
    piecesFrom [] piece = [piece] := by
  have h := piecesFrom_append hslash [] []
  rw [List.append_nil, List.append_nil] at h
  simp [h, piecesFrom, hne]

theorem of_mem_piecesFrom {P : UInt8 → Prop} {piece bs p : Bytes}
    (hpiece : ∀ b ∈ piece, b ≠ slash ∧ P b) (hbs : ∀ b ∈ bs, P b) (h : p ∈ piecesFrom piece bs) :
    p ≠ [] ∧ ∀ b ∈ p, b ≠ slash ∧ P b := by
  induction bs generalizing piece with
  | nil =>
    rw [piecesFrom] at h
    split_ifs at h with hempty
    · simp at h
    · rw [List.mem_singleton] at h
      subst h
      exact ⟨by simpa using hempty, fun b hb => hpiece b (List.mem_reverse.1 hb)⟩
  | cons b bs ih =>
    rw [List.forall_mem_cons] at hbs
    rw [piecesFrom] at h
    split_ifs at h with hb hempty
    · exact ih (by simp) hbs.2 h
    · obtain rfl | h := List.mem_cons.1 h
      · exact ⟨by simpa using hempty, fun b hb => hpiece b (List.mem_reverse.1 hb)⟩
      · exact ih (by simp) hbs.2 h
    · exact ih (List.forall_mem_cons.2 ⟨⟨hb, hbs.1⟩, hpiece⟩) hbs.2 h

theorem component_of_isPiece {n : FileName} (hn : n.IsPiece) : component n = .name n := by
  rw [component, if_neg hn.ne_dot, if_neg hn.ne_dotDot]

/-- A name in a path is a proper one, if the path has no NUL and the name is not too long. -/
theorem of_name_mem_components {path : Path} {n : FileName} (h : .name n ∈ path.components) :
    n.IsPiece ∧ ∀ b ∈ n, b ∈ path.bytes := by
  obtain ⟨piece, hpiece, hn⟩ := List.mem_map.1 h
  obtain ⟨hne, hbytes⟩ := of_mem_piecesFrom (by simp) (fun _ hb => hb) hpiece
  unfold component at hn
  split_ifs at hn with hdot hdotDot
  obtain rfl := Component.name.inj hn
  exact ⟨⟨hne, fun hslash => (hbytes _ hslash).1 rfl, hdot, hdotDot⟩, fun b hb => (hbytes b hb).2⟩

theorem isAbsolute_join (base arg : Path) (h : base.isAbsolute = true) :
    (base.join arg).isAbsolute = true := by
  have hne : ∃ b bs, base.bytes = b :: bs := by
    cases hb : base.bytes with
    | nil => simp [isAbsolute, hb] at h
    | cons b bs => exact ⟨b, bs, rfl⟩
  obtain ⟨b, bs, hb⟩ := hne
  unfold join
  split_ifs with harg
  · exact harg
  · simpa [isAbsolute, hb] using h
  · simpa [isAbsolute, hb] using h

section Relative

variable {arg : Path} (harg : arg.isAbsolute = false) (path : Path)
include harg

theorem bytes_join :
    (path.join arg).bytes = path.bytes ++ arg.bytes ∧
        (path.bytes = [] ∨ ∃ bs, path.bytes = bs ++ [slash]) ∨
      (path.join arg).bytes = path.bytes ++ slash :: arg.bytes ∧ path.bytes ≠ [] := by
  unfold join
  rw [if_neg (by simp [harg])]
  split_ifs with hend
  · rw [Bool.or_eq_true, List.isEmpty_iff] at hend
    refine .inl ⟨rfl, hend.imp_right fun h => ?_⟩
    exact List.getLast?_eq_some_iff.1 (eq_of_beq h)
  · exact .inr ⟨rfl, fun h => by simp [h] at hend⟩

theorem pieces_join : (path.join arg).pieces = path.pieces ++ arg.pieces := by
  unfold pieces
  obtain ⟨hbytes, hend⟩ | ⟨hbytes, -⟩ := bytes_join harg path
  · rw [hbytes]
    obtain hend | ⟨bs, hend⟩ := hend
    · rw [hend]
      rfl
    · rw [hend, List.append_assoc, List.singleton_append, piecesFrom_append_slash,
        piecesFrom_append_slash]
      simp [piecesFrom]
  · rw [hbytes, piecesFrom_append_slash]

theorem components_join : (path.join arg).components = path.components ++ arg.components := by
  rw [components, pieces_join harg, List.map_append, components, components]

theorem endsInSlash_join (hne : arg.bytes ≠ []) :
    (path.join arg).endsInSlash = arg.endsInSlash := by
  obtain ⟨hbytes, -⟩ | ⟨hbytes, -⟩ := bytes_join harg path
  · rw [endsInSlash, hbytes, List.getLast?_append_of_ne_nil _ hne, endsInSlash]
  · rw [endsInSlash, hbytes, List.append_cons, List.getLast?_append_of_ne_nil _ hne, endsInSlash]

theorem isAbsolute_join_relative : (path.join arg).isAbsolute = path.isAbsolute := by
  cases hb : path.bytes with
  | nil =>
    obtain ⟨hbytes, -⟩ | ⟨-, hne⟩ := bytes_join harg path
    · simpa [isAbsolute, hbytes, hb] using harg
    · exact absurd hb hne
  | cons b bs =>
    obtain ⟨hbytes, -⟩ | ⟨hbytes, -⟩ := bytes_join harg path <;>
      simp [isAbsolute, hbytes, hb]

end Relative

section Name

variable {n : FileName} (hn : n.IsPiece) (path : Path)
include hn

theorem getLast?_name (bs : Bytes) : (bs ++ n).getLast? ≠ some slash := by
  intro h
  rw [List.getLast?_append_of_ne_nil _ hn.ne_nil, List.getLast?_eq_some_getLast hn.ne_nil] at h
  exact hn.noSlash (Option.some.inj h ▸ List.getLast_mem hn.ne_nil)

theorem isAbsolute_name : (Path.mk n).isAbsolute = false := by
  cases n with
  | nil => rfl
  | cons b n =>
    have hb : b ≠ slash := fun hb => hn.noSlash (by simp [hb])
    simpa [isAbsolute] using hb

theorem components_name : (Path.mk n).components = [.name n] := by
  rw [components, pieces, piecesFrom_of_slash_notMem hn.ne_nil hn.noSlash, List.map_singleton,
    component_of_isPiece hn]

@[simp] theorem components_join_name : (path.join ⟨n⟩).components = path.components ++ [.name n] := by
  rw [components_join (isAbsolute_name hn), components_name hn]

@[simp] theorem endsInSlash_join_name : (path.join ⟨n⟩).endsInSlash = false := by
  rw [endsInSlash_join (isAbsolute_name hn) path hn.ne_nil]
  exact beq_false_of_ne (getLast?_name hn [])

end Name
end Path

namespace Place

theorem bytes_path (place : Place) :
    place.path.bytes = if place = [] then [Path.slash] else place.flatMap (Path.slash :: ·) := by
  unfold path
  cases place <;> rfl

@[simp] theorem isAbsolute_path (place : Place) : place.path.isAbsolute = true := by
  cases place <;> rfl

variable {place : Place}

theorem endsInSlash_path_concat (place : Place) {n : FileName} (hn : n.IsPiece) :
    (place ++ [n]).path.endsInSlash = false := by
  apply beq_false_of_ne
  rw [bytes_path, if_neg (by simp), List.flatMap_append, List.flatMap_singleton, List.append_cons]
  exact Path.getLast?_name hn _

theorem path_concat {n : FileName} (hplace : ∀ m ∈ place, m.IsPiece) (hn : n.IsPiece) :
    (place ++ [n]).path = place.path.join ⟨n⟩ := by
  obtain rfl | ⟨init, m, rfl⟩ := List.eq_nil_or_concat place
  · simp [path, Path.join, Path.isAbsolute_name hn, Path.endsInSlash]
  · have hend := endsInSlash_path_concat init (hplace m (by simp))
    unfold Path.join
    rw [if_neg (by simp [Path.isAbsolute_name hn]), List.concat_eq_append, hend]
    simp [path]

theorem components_path (hplace : ∀ n ∈ place, n.IsPiece) :
    place.path.components = place.map .name := by
  -- A name is joined at the end of a path, and so names are taken off the end here.
  induction hlength : place.length generalizing place with
  | zero =>
    obtain rfl := List.length_eq_zero_iff.1 hlength
    rfl
  | succ k ih =>
    have hne : place ≠ [] := by
      rintro rfl
      simp at hlength
    obtain ⟨init, n, rfl⟩ := (List.eq_nil_or_concat place).resolve_left hne
    have hinit : ∀ m ∈ init, m.IsPiece := fun m hm => hplace m (by simp [hm])
    have hn := hplace n (by simp)
    rw [List.concat_eq_append, path_concat hinit hn, Path.components_join_name hn,
      ih hinit (by simpa using hlength)]
    simp

end Place
end FileShell
