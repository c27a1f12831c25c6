import FileShell.Proofs.PathNames
import FileShell.Proofs.Utf8Codec
import FileShell.Session

namespace FileShell

namespace Path

/-- A path with another behind it, a slash between them. -/
def behind (path arg : Path) : Path := ⟨path.bytes ++ slash :: arg.bytes⟩

@[simp] theorem components_behind (path arg : Path) :
    (path.behind arg).components = path.components ++ arg.components := by
  rw [components, pieces, behind, piecesFrom_append_slash, List.map_append]
  rfl

theorem endsInSlash_behind (path : Path) {arg : Path} (hne : arg.bytes ≠ []) :
    (path.behind arg).endsInSlash = arg.endsInSlash := by
  rw [endsInSlash, behind, List.append_cons, List.getLast?_append_of_ne_nil _ hne, endsInSlash]

theorem isAbsolute_behind {path : Path} (hne : path.bytes ≠ []) (arg : Path) :
    (path.behind arg).isAbsolute = path.isAbsolute := by
  obtain ⟨b, bs, hb⟩ := List.exists_cons_of_ne_nil hne
  simp [isAbsolute, behind, hb]

/-- What is joined to the front of a path is joined to the front of all that stands behind it. -/
theorem join_behind (base : Path) {path : Path} (hne : path.bytes ≠ []) (arg : Path) :
    base.join (path.behind arg) = (base.join path).behind arg := by
  unfold join
  rw [isAbsolute_behind hne]
  split_ifs
  · rfl
  · simp [behind]
  · simp [behind]

theorem piecesFrom_ne_nil {piece : Bytes} (hpiece : piece ≠ []) (bs : Bytes) :
    piecesFrom piece bs ≠ [] := by
  induction bs generalizing piece with
  | nil => simp [piecesFrom, hpiece]
  | cons b bs ih =>
    rw [piecesFrom]
    split_ifs with hslash hempty
    · exact absurd (List.isEmpty_iff.1 hempty) hpiece
    · exact List.cons_ne_nil _ _
    · exact ih (List.cons_ne_nil b piece)

theorem components_ne_nil {arg : Path} (harg : arg.isAbsolute = false) (hne : arg.bytes ≠ []) :
    arg.components ≠ [] := by
  obtain ⟨b, bs, hb⟩ := List.exists_cons_of_ne_nil hne
  have hslash : b ≠ slash := by
    rintro rfl
    simp [isAbsolute, hb] at harg
  rw [components, pieces, hb, piecesFrom, if_neg hslash]
  simpa using piecesFrom_ne_nil (List.cons_ne_nil b []) bs

@[simp] theorem isAbsolute_ofText (t : Text) : (ofText t).isAbsolute = (t.head? == some '/') := by
  cases t with
  | nil => rfl
  | cons c t =>
    by_cases hc : c = '/'
    · subst hc
      rfl
    · obtain ⟨b, bs, hb⟩ := List.exists_cons_of_ne_nil (Utf8.encodeChar_ne_nil c)
      have hslash : b ≠ slash := by
        rintro rfl
        have hmem := (Utf8.mem_encodeChar_iff (c := '/') (by decide) c).1 (hb ▸ List.mem_cons_self)
        exact hc hmem.symm
      have hbytes : (ofText (c :: t)).bytes = b :: (bs ++ Utf8.encode t) := by
        rw [ofText, Utf8.encode, List.flatMap_cons, hb, List.cons_append]
        rfl
      simp [isAbsolute, hbytes, beq_false_of_ne hslash, beq_false_of_ne hc]

theorem slash_mem_encode {t : Text} : slash ∈ Utf8.encode t ↔ '/' ∈ t :=
  Utf8.mem_encode_iff (c := '/') (by decide) t

theorem exists_of_mem_piecesFrom {done t : Text} {piece : Bytes}
    (h : piece ∈ piecesFrom (Utf8.encode done).reverse (Utf8.encode t)) :
    ∃ v, piece = Utf8.encode v ∧ ∀ c ∈ v, c ∈ done ++ t := by
  -- The piece under way is the encoding of what has been read of it.
  induction t generalizing done with
  | nil =>
    rw [Utf8.encode_nil, piecesFrom] at h
    split_ifs at h
    · simp at h
    · rw [List.reverse_reverse, List.mem_singleton] at h
      exact ⟨done, h, by simp⟩
  | cons c t ih =>
    have hcons : Utf8.encode (c :: t) = Utf8.encodeChar c ++ Utf8.encode t := rfl
    by_cases hc : c = '/'
    · subst hc
      have hslash : Utf8.encode ('/' :: t) = slash :: Utf8.encode t := rfl
      rw [hslash, piecesFrom, if_pos rfl] at h
      have hrest (h : piece ∈ piecesFrom [] (Utf8.encode t)) :
          ∃ v, piece = Utf8.encode v ∧ ∀ c ∈ v, c ∈ done ++ '/' :: t := by
        obtain ⟨v, hv, hmem⟩ := @ih [] h
        exact ⟨v, hv, fun c hc => by simp [List.nil_append _ ▸ hmem c hc]⟩
      split_ifs at h
      · exact hrest h
      · obtain h | h := List.mem_cons.1 h
        · exact ⟨done, by rw [h, List.reverse_reverse], fun c hc => List.mem_append_left _ hc⟩
        · exact hrest h
    · have hslash : slash ∉ Utf8.encodeChar c := fun hmem =>
        hc ((Utf8.mem_encodeChar_iff (c := '/') (by decide) c).1 hmem).symm
      have hdone : (Utf8.encodeChar c).reverse ++ (Utf8.encode done).reverse =
          (Utf8.encode (done ++ [c])).reverse := by
        rw [Utf8.encode_append, List.reverse_append]
        simp [Utf8.encode]
      rw [hcons, piecesFrom_append hslash, hdone] at h
      obtain ⟨v, hv, hmem⟩ := ih h
      exact ⟨v, hv, by simpa using hmem⟩

theorem of_mem_pieces {path : Path} : ∀ p ∈ path.pieces, p ≠ [] ∧ slash ∉ p := by
  intro p hp
  obtain ⟨hne, hbytes⟩ := of_mem_piecesFrom (by simp) (fun _ _ => trivial) hp
  exact ⟨hne, fun hslash => (hbytes _ hslash).1 rfl⟩

theorem isAbsolute_of_mem {ps : List Bytes} (hps : ∀ p ∈ ps, p ≠ [] ∧ slash ∉ p) :
    ∀ p ∈ ps, (mk p).isAbsolute = false := by
  intro p hp
  obtain ⟨hne, hslash⟩ := hps p hp
  obtain ⟨b, bs, rfl⟩ := List.exists_cons_of_ne_nil hne
  have hb : b ≠ slash := fun hb => hslash (by simp [hb])
  simpa [isAbsolute] using hb

theorem foldl_join {ps : List Bytes} (hps : ∀ p ∈ ps, p ≠ [] ∧ slash ∉ p) (home : Path) :
    ((ps.map mk).foldl join home).components = home.components ++ ps.map component ∧
      ((ps.map mk).foldl join home).isAbsolute = home.isAbsolute := by
  induction ps generalizing home with
  | nil => simp
  | cons p ps ih =>
    have hrelative : (mk p).isAbsolute = false := isAbsolute_of_mem hps p List.mem_cons_self
    rw [List.forall_mem_cons] at hps
    obtain ⟨⟨hne, hslash⟩, hrest⟩ := hps
    obtain ⟨hcomponents, habsolute⟩ := ih hrest (home.join ⟨p⟩)
    rw [List.map_cons, List.foldl_cons, hcomponents, habsolute, components_join hrelative,
      isAbsolute_join_relative hrelative]
    have hpiece : (mk p).components = [component p] := by
      rw [components, pieces, piecesFrom_of_slash_notMem hne hslash, List.map_singleton]
    rw [hpiece, List.append_assoc, List.singleton_append, List.map_cons]
    exact ⟨rfl, rfl⟩

theorem ofText_append_slash (path arg : Text) :
    ofText (path ++ '/' :: arg) = (ofText path).behind (ofText arg) := by
  simp only [ofText, behind, Utf8.encode_append]
  rfl

theorem components_ofText_append {dir : Text} (hdir : ∀ c ∈ dir.getLast?, c = '/') (t : Text) :
    (ofText (dir ++ t)).components = (ofText dir).components ++ (ofText t).components := by
  obtain rfl | ⟨init, c, rfl⟩ := List.eq_nil_or_concat dir
  · rfl
  · obtain rfl : c = '/' := hdir c (by simp)
    have hnone : (ofText []).components = [] := rfl
    simp [ofText_append_slash, hnone]

theorem mem_of_name_mem_components {name t : Text}
    (h : .name (Utf8.encode name) ∈ (ofText t).components) : ∀ c ∈ name, c ∈ t := by
  obtain ⟨piece, hpiece, hname⟩ := List.mem_map.1 h
  obtain ⟨v, rfl, hmem⟩ := @exists_of_mem_piecesFrom [] t piece hpiece
  have hv : Utf8.encode v = Utf8.encode name := by
    unfold component at hname
    split_ifs at hname
    exact Component.name.inj hname
  obtain rfl : v = name := by rw [← Utf8.decode_encode v, hv, Utf8.decode_encode]
  exact hmem

end Path

namespace Home

theorem expand_eq_ofText {home : Home} {t : Text}
    (h : home.path = none ∨ t ≠ ['~'] ∧ ∀ rest, t ≠ '~' :: '/' :: rest) :
    home.expand t = Path.ofText t := by
  unfold expand
  split
  · simp_all
  · simp_all
  · rfl

theorem expand_of_head_ne (home : Home) {t : Text} (h : t.head? ≠ some '~') :
    home.expand t = Path.ofText t := by
  refine expand_eq_ofText (.inr ⟨?_, fun rest => ?_⟩)
  · rintro rfl
    exact h rfl
  · rintro rfl
    exact h rfl

theorem expand_of_slash_notMem (home : Home) {t : Text} (h : '/' ∉ t) :
    home.expand t = if t = ['~'] then home.path.getD (Path.ofText t) else Path.ofText t := by
  by_cases ht : t = ['~']
  · subst ht
    obtain ⟨path⟩ := home
    cases path <;> rfl
  · rw [if_neg ht]
    refine expand_eq_ofText (.inr ⟨ht, fun rest => ?_⟩)
    rintro rfl
    simp at h

theorem expand_eq_foldl {home : Home} {path : Path} (hhome : home.path = some path) (rest : Text) :
    home.expand ('~' :: '/' :: rest) =
      ((Path.ofText rest).pieces.map Path.mk).foldl Path.join path := by
  obtain ⟨_⟩ := home
  cases hhome
  rfl

theorem expand_tilde {home : Home} {path : Path} (hhome : home.path = some path) (rest : Text) :
    (home.expand ('~' :: '/' :: rest)).components = path.components ++ (Path.ofText rest).components ∧
      (home.expand ('~' :: '/' :: rest)).isAbsolute = path.isAbsolute := by
  rw [expand_eq_foldl hhome]
  exact Path.foldl_join Path.of_mem_pieces path

/-- What stands behind a directory adds its components, and home is put for `~` before it or not at
all. -/
theorem expand_append (home : Home) {dir : Text} (hne : dir ≠ []) (hdir : ∀ c ∈ dir.getLast?, c = '/')
    (t : Text) :
    (home.expand (dir ++ t)).components =
        (home.expand dir).components ++ (Path.ofText t).components ∧
      (home.expand (dir ++ t)).isAbsolute = (home.expand dir).isAbsolute := by
  by_cases hsign : ∃ path rest, home.path = some path ∧ dir = '~' :: '/' :: rest
  · obtain ⟨path, rest, hpath, rfl⟩ := hsign
    have hlast : ∀ c ∈ rest.getLast?, c = '/' := by
      intro c hc
      refine hdir c ?_
      rw [List.getLast?_cons_cons, List.getLast?_cons, Option.mem_def.1 hc]
      rfl
    obtain ⟨hcomponents, habsolute⟩ := expand_tilde hpath rest
    obtain ⟨hcomponents', habsolute'⟩ := expand_tilde hpath (rest ++ t)
    rw [Path.components_ofText_append hlast, ← List.append_assoc, ← hcomponents] at hcomponents'
    exact ⟨hcomponents', habsolute'.trans habsolute.symm⟩
  · -- Whether home is put for the front of a path is seen in the directory alone.
    have hkept (s : Text) : home.expand (dir ++ s) = Path.ofText (dir ++ s) := by
      refine expand_eq_ofText ?_
      cases hpath : home.path with
      | none => exact .inl rfl
      | some path =>
        obtain - | ⟨c, - | ⟨d, rest⟩⟩ := dir
        · exact absurd rfl hne
        · obtain rfl : c = '/' := hdir c rfl
          exact .inr ⟨by simp, by simp⟩
        · refine .inr ⟨by simp, fun more h => hsign ⟨path, rest, hpath, ?_⟩⟩
          injection h with hc h
          injection h with hd h
          rw [hc, hd]
    have hdirs := hkept []
    rw [List.append_nil] at hdirs
    rw [hkept, hdirs, Path.components_ofText_append hdir, Path.isAbsolute_ofText,
      Path.isAbsolute_ofText]
    obtain ⟨c, rest, rfl⟩ := List.exists_cons_of_ne_nil hne
    exact ⟨rfl, rfl⟩

end Home
end FileShell
