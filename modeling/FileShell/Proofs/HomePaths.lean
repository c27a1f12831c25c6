import FileShell.Proofs.AlikePaths
import FileShell.Proofs.SessionDirectory
import Mathlib.Tactic.Tauto

namespace FileShell

namespace Path

section Joined

variable {ps : List Bytes} (hps : ∀ p ∈ ps, p ≠ [] ∧ slash ∉ p) (home : Path)
include hps

theorem length_foldl_join_le : ((ps.map mk).foldl join home).bytes.length ≤
    home.bytes.length + (ps.flatMap (slash :: ·)).length := by
  induction ps generalizing home with
  | nil => exact Nat.le_refl _
  | cons p ps ih =>
    have hrelative : (mk p).isAbsolute = false := isAbsolute_of_mem hps _ List.mem_cons_self
    have hrest := ih (fun q hq => hps q (List.mem_cons_of_mem p hq)) (home.join ⟨p⟩)
    have hfirst := length_join_le hrelative home
    rw [List.map_cons, List.foldl_cons, List.flatMap_cons, List.length_append, List.length_cons]
    dsimp only at hfirst
    omega

theorem mem_foldl_join {b : UInt8} (hb : b ≠ slash) :
    b ∈ ((ps.map mk).foldl join home).bytes ↔ b ∈ home.bytes ∨ ∃ p ∈ ps, b ∈ p := by
  induction ps generalizing home with
  | nil => simp
  | cons p ps ih =>
    have hrelative : (mk p).isAbsolute = false := isAbsolute_of_mem hps _ List.mem_cons_self
    rw [List.map_cons, List.foldl_cons, ih (fun q hq => hps q (List.mem_cons_of_mem p hq)),
      mem_bytes_join hrelative home hb, or_assoc]
    simp

theorem endsInSlash_foldl_join :
    ((ps.map mk).foldl join home).endsInSlash = (ps.isEmpty && home.endsInSlash) := by
  obtain rfl | ⟨init, p, rfl⟩ := List.eq_nil_or_concat ps
  · rfl
  · rw [List.concat_eq_append] at hps ⊢
    have hp : p ∈ init ++ [p] := List.mem_append_right init List.mem_cons_self
    obtain ⟨hne, hslash⟩ := hps p hp
    have hlast : (mk p).endsInSlash = false := by
      apply beq_false_of_ne
      rw [List.getLast?_eq_some_getLast hne]
      intro h
      exact hslash (Option.some.inj h ▸ List.getLast_mem hne)
    simp [endsInSlash_join (isAbsolute_of_mem hps p hp) _ hne, hlast]

end Joined

theorem length_flatMap_piecesFrom_le (piece bs : Bytes) :
    ((piecesFrom piece bs).flatMap (slash :: ·)).length ≤ piece.length + bs.length + 1 := by
  induction bs generalizing piece with
  | nil =>
    rw [piecesFrom]
    split_ifs
    · exact Nat.zero_le _
    · simp
  | cons b bs ih =>
    have hnone := ih []
    have hmore := ih (b :: piece)
    rw [List.length_cons] at hmore ⊢
    rw [List.length_nil] at hnone
    rw [piecesFrom]
    split_ifs
    · omega
    · rw [List.flatMap_cons, List.length_append, List.length_cons, List.length_reverse]
      omega
    · omega

theorem mem_piecesFrom {b : UInt8} (hb : b ≠ slash) (piece bs : Bytes) :
    (∃ p ∈ piecesFrom piece bs, b ∈ p) ↔ b ∈ piece ∨ b ∈ bs := by
  induction bs generalizing piece with
  | nil =>
    rw [piecesFrom]
    split_ifs with hempty
    · simp [List.isEmpty_iff.1 hempty]
    · simp
  | cons c bs ih =>
    rw [piecesFrom]
    split_ifs with hslash hempty
    · simp [ih, hslash, hb, List.isEmpty_iff.1 hempty]
    · simp [ih, hslash, hb]
    · simp [ih, or_left_comm, or_assoc]

theorem ne_nil_of_isAbsolute {path : Path} (h : path.isAbsolute = true) : path.bytes ≠ [] := by
  intro hnil
  simp [isAbsolute, hnil] at h

theorem endsInSlash_ofText (t : Text) : (ofText t).endsInSlash = (t.getLast? == some '/') := by
  obtain rfl | ⟨init, c, rfl⟩ := List.eq_nil_or_concat t
  · rfl
  · have hchar : Utf8.encode [c] = Utf8.encodeChar c := by simp [Utf8.encode]
    have hne := Utf8.encodeChar_ne_nil c
    rw [List.concat_eq_append, endsInSlash, ofText, Utf8.encode_append, hchar,
      List.getLast?_append_of_ne_nil _ hne, List.getLast?_eq_some_getLast hne, List.getLast?_concat]
    by_cases hc : c = '/'
    · subst hc
      rfl
    · have hlast : (Utf8.encodeChar c).getLast hne ≠ slash := by
        intro h
        have hmem : slash ∈ Utf8.encodeChar c := h ▸ List.getLast_mem hne
        exact hc ((Utf8.mem_encodeChar_iff (c := '/') (by decide) c).1 hmem).symm
      rw [beq_false_of_ne (mt Option.some.inj hlast), beq_false_of_ne (mt Option.some.inj hc)]

theorem pieces_ofText_eq_nil_iff {t : Text} : (ofText t).pieces = [] ↔ ∀ c ∈ t, c = '/' := by
  constructor
  · intro h c hc
    obtain ⟨b, bs, hb⟩ := List.exists_cons_of_ne_nil (Utf8.encodeChar_ne_nil c)
    have hmem : b ∈ Utf8.encodeChar c := by simp [hb]
    have hslash : b = slash :=
      eq_slash_of_piecesFrom_eq_nil h b (List.mem_flatMap.2 ⟨c, hc, hmem⟩)
    rw [hslash] at hmem
    exact ((Utf8.mem_encodeChar_iff (c := '/') (by decide) c).1 hmem).symm
  · intro h
    induction t with
    | nil => rfl
    | cons c t ih =>
      obtain ⟨rfl, ht⟩ := List.forall_mem_cons.1 h
      exact ih ht

end Path

namespace Home

open FileSystem

/-- A slash stands last behind `~/`, and it is not one that home ends in already. -/
def LosesSlash (home : Path) (rest : Text) : Prop :=
  rest.getLast?.getD '/' = '/' ∧ ¬ (home.endsInSlash = true ∧ ∀ c ∈ rest, c = '/')

instance (home : Path) (rest : Text) : Decidable (LosesSlash home rest) :=
  inferInstanceAs (Decidable (_ ∧ _))

section Tilde

variable {home : Home} {path : Path} (hhome : home.path = some path) (rest : Text)

theorem endsInSlash_behind_ofText :
    (path.behind (Path.ofText rest)).endsInSlash = (rest.getLast?.getD '/' == '/') := by
  by_cases hne : rest = []
  · subst hne
    show ((path.bytes ++ [Path.slash]).getLast? == some Path.slash) = true
    rw [List.getLast?_concat]
    rfl
  · have hspelled : (Path.ofText rest).bytes ≠ [] := Utf8.encode_ne_nil hne
    rw [Path.endsInSlash_behind path hspelled, Path.endsInSlash_ofText,
      List.getLast?_eq_some_getLast hne, Option.getD_some]
    rfl

include hhome

theorem endsInSlash_expand : (home.expand ('~' :: '/' :: rest)).endsInSlash = true ↔
    path.endsInSlash = true ∧ ∀ c ∈ rest, c = '/' := by
  rw [expand_eq_foldl hhome, Path.endsInSlash_foldl_join Path.of_mem_pieces,
    Bool.and_eq_true, List.isEmpty_iff, Path.pieces_ofText_eq_nil_iff, and_comm]

theorem endsInSlash_eq_iff : (home.expand ('~' :: '/' :: rest)).endsInSlash =
    (path.behind (Path.ofText rest)).endsInSlash ↔ ¬ LosesSlash path rest := by
  rw [Bool.eq_iff_iff, endsInSlash_expand hhome, endsInSlash_behind_ofText, beq_iff_eq, LosesSlash]
  -- Where nothing but slashes stands behind home, one of them stands last.
  have hlast (h : ∀ c ∈ rest, c = '/') : rest.getLast?.getD '/' = '/' := by
    by_cases hne : rest = []
    · rw [hne]
      rfl
    · rw [List.getLast?_eq_some_getLast hne]
      exact h _ (List.getLast_mem hne)
  tauto

theorem respells_behind (hpath : path.isAbsolute = true)
    (hshort : (path.behind (Path.ofText rest)).bytes.length ≤ pathLimit) :
    Respells (home.expand ('~' :: '/' :: rest)) (path.behind (Path.ofText rest)) ∧
      (home.expand ('~' :: '/' :: rest)).bytes.length ≤
        (path.behind (Path.ofText rest)).bytes.length := by
  obtain ⟨hcomponents, habsolute⟩ := expand_tilde hhome rest
  have hlength : (home.expand ('~' :: '/' :: rest)).bytes.length ≤
      (path.behind (Path.ofText rest)).bytes.length := by
    have hjoined := Path.length_foldl_join_le (@Path.of_mem_pieces (Path.ofText rest)) path
    have hpieces := Path.length_flatMap_piecesFrom_le [] (Path.ofText rest).bytes
    rw [expand_eq_foldl hhome, Path.behind, List.length_append, List.length_cons]
    rw [List.length_nil] at hpieces
    unfold Path.pieces at hjoined ⊢
    omega
  refine ⟨⟨?_, ?_, ?_, ?_, ?_, by omega, hshort⟩, hlength⟩
  · rw [habsolute, Path.isAbsolute_behind (Path.ne_nil_of_isAbsolute hpath)]
  · rw [hcomponents, Path.components_behind]
  · rw [expand_eq_foldl hhome, Path.mem_foldl_join Path.of_mem_pieces path (by decide), Path.pieces,
      Path.mem_piecesFrom (by decide), Path.behind]
    simp [Path.slash]
  · exact Path.ne_nil_of_isAbsolute (habsolute.trans hpath)
  · simp [Path.behind]

end Tilde
end Home

namespace Session

open FileSystem Home

/-- What an argument means if `~/` is read as home and a slash, and what comes then is kept. -/
def spelledOut (session : Session) (arg : Text) : Path :=
  match session.home.path, arg with
  | some home, '~' :: '/' :: rest => home.behind (Path.ofText rest)
  | _, _ => session.resolve arg

theorem spelledOut_of_ne {arg : Text} (harg : ∀ rest, arg ≠ '~' :: '/' :: rest) (session : Session) :
    session.spelledOut arg = session.resolve arg := by
  unfold spelledOut
  split
  · next rest _ => exact absurd rfl (harg rest)
  · rfl

section Tilde

variable {session : Session} {home : Path} (hhome : session.home.path = some home)
  (habsolute : home.isAbsolute = true) (rest : Text)
include hhome

theorem spelledOut_tilde :
    session.spelledOut ('~' :: '/' :: rest) = home.behind (Path.ofText rest) := by
  obtain ⟨place, ⟨path⟩⟩ := session
  cases hhome
  rfl

include habsolute

theorem resolve_tilde :
    session.resolve ('~' :: '/' :: rest) = session.home.expand ('~' :: '/' :: rest) := by
  have h := (expand_tilde hhome rest).2
  rw [resolve, Path.join, if_pos (h.trans habsolute)]

theorem alike_spelledOut (hslash : ¬ LosesSlash home rest)
    (hnul : (0 : UInt8) ∉ (home.behind (Path.ofText rest)).bytes)
    (hroom : (home.behind (Path.ofText rest)).bytes.length + (nameLimit + 1) ≤ pathLimit) :
    (session.resolve ('~' :: '/' :: rest)).Alike (session.spelledOut ('~' :: '/' :: rest)) := by
  obtain ⟨hrespells, hlength⟩ := respells_behind hhome rest habsolute (by omega)
  rw [resolve_tilde hhome habsolute, spelledOut_tilde hhome]
  exact hrespells.alike ((endsInSlash_eq_iff hhome rest).2 hslash) hnul (by omega) hroom

variable (hshort : (home.behind (Path.ofText rest)).bytes.length ≤ pathLimit)
include hshort

theorem approach_spelledOut (hslash : ¬ LosesSlash home rest) (fs : FileSystem)
    (following : Following) :
    fs.approach following (session.resolve ('~' :: '/' :: rest)) =
      fs.approach following (session.spelledOut ('~' :: '/' :: rest)) := by
  obtain ⟨hrespells, -⟩ := respells_behind hhome rest habsolute hshort
  rw [resolve_tilde hhome habsolute, spelledOut_tilde hhome]
  exact hrespells.approach_eq ((endsInSlash_eq_iff hhome rest).2 hslash) fs following

theorem locate_spelledOut (hslash : LosesSlash home rest) (fs : FileSystem) :
    fs.locate (session.spelledOut ('~' :: '/' :: rest)) =
        fs.locate (session.resolve ('~' :: '/' :: rest)) >>= fs.asDirectory ∧
      fs.locateEntry (session.spelledOut ('~' :: '/' :: rest)) =
        fs.locate (session.spelledOut ('~' :: '/' :: rest)) := by
  obtain ⟨hrespells, -⟩ := respells_behind hhome rest habsolute hshort
  rw [resolve_tilde hhome habsolute, spelledOut_tilde hhome]
  have hspelled : (home.behind (Path.ofText rest)).endsInSlash = true := by
    rw [endsInSlash_behind_ofText, hslash.1]
    rfl
  have hlost : (session.home.expand ('~' :: '/' :: rest)).endsInSlash = false := by
    rw [← Bool.not_eq_true, endsInSlash_expand hhome]
    exact hslash.2
  have hcs := Path.components_ne_nil_of_endsInSlash_eq_false hrespells.spelled hlost
  exact ⟨hrespells.locate_slashed hspelled hcs fs, Respells.locateEntry_slashed hspelled fs⟩

/-- Both spellings lead to the same exactly if no slash is lost, or if it stands for a directory or for
nothing. -/
theorem lookups_spelledOut_iff {fs : FileSystem} (hfs : fs.WellFormed) :
    (fs.locate (session.resolve ('~' :: '/' :: rest)) =
        fs.locate (session.spelledOut ('~' :: '/' :: rest)) ∧
      fs.locateEntry (session.resolve ('~' :: '/' :: rest)) =
        fs.locateEntry (session.spelledOut ('~' :: '/' :: rest))) ↔
      (LosesSlash home rest → ∀ place,
        fs.locateEntry (session.resolve ('~' :: '/' :: rest)) = .ok place →
          ∃ folder es, fs.node? place = some (.dir folder es)) := by
  constructor
  · rintro ⟨hlocate, hentry⟩ hslash place hplace
    obtain ⟨hspelled, hspelled'⟩ := locate_spelledOut hhome habsolute rest hshort hslash fs
    have hdirectory : fs.locate (session.resolve ('~' :: '/' :: rest)) >>= fs.asDirectory =
        .ok place := by
      rw [← hspelled, ← hspelled', ← hentry, hplace]
    obtain ⟨q, -, hq⟩ := bind_eq_ok_iff.1 hdirectory
    unfold asDirectory at hq
    split at hq
    · next folder es hnode =>
      obtain rfl := Except.ok.inj hq
      exact ⟨folder, es, hnode⟩
    · cases hq
  · intro hdir
    by_cases hslash : LosesSlash home rest
    · obtain ⟨hspelled, hspelled'⟩ := locate_spelledOut hhome habsolute rest hshort hslash fs
      have hdir := hdir hslash
      have hsame : fs.locate (session.resolve ('~' :: '/' :: rest)) =
          fs.locateEntry (session.resolve ('~' :: '/' :: rest)) :=
        locate_eq_locateEntry hfs fun place hplace => (fs.node?_eq_dir_iff place).1 (hdir place hplace)
      have hkept : fs.locate (session.spelledOut ('~' :: '/' :: rest)) =
          fs.locate (session.resolve ('~' :: '/' :: rest)) := by
        rw [hspelled, hsame]
        cases hplace : fs.locateEntry (session.resolve ('~' :: '/' :: rest)) with
        | error fault => rfl
        | ok place =>
          obtain ⟨folder, es, hnode⟩ := hdir place hplace
          rw [ok_bind, asDirectory, hnode]
      exact ⟨hkept.symm, by rw [hspelled', hkept, hsame]⟩
    · have hcomes := approach_spelledOut hhome habsolute rest hshort hslash
      exact ⟨Path.Alike.locate_eq hcomes fs, Path.Alike.locateEntry_eq hcomes fs⟩

end Tilde

/-- What stands behind `~/` leads where it leads behind home and a slash, with a link at the end
followed or not, exactly if no slash at its end is lost or a directory or nothing stands there; a path
that is too long leads nowhere only as it is spelled. Where no slash is lost and there is room for the
path and a name, every command does the same on both spellings. -/
theorem tilde_spelled_out {w : World} (hfs : w.files.WellFormed) {home : Path}
    (hhome : w.session.home.path = some home) (habsolute : home.isAbsolute = true) :
    (∀ rest : Text,
      let found := w.session.resolve ('~' :: '/' :: rest)
      let spelled := home.behind (Path.ofText rest)
      (spelled.bytes.length ≤ pathLimit →
        (w.files.locate found = w.files.locate spelled ∧
            w.files.locateEntry found = w.files.locateEntry spelled ↔
          (LosesSlash home rest → ∀ place, w.files.locateEntry found = .ok place →
            ∃ folder es, w.files.node? place = some (.dir folder es))) ∧
        (LosesSlash home rest →
          w.files.locate spelled = w.files.locate found >>= w.files.asDirectory ∧
          w.files.locateEntry spelled = w.files.locate spelled) ∧
        (¬ LosesSlash home rest → ∀ following,
          w.files.approach following found = w.files.approach following spelled)) ∧
      (pathLimit < spelled.bytes.length → (0 : UInt8) ∉ spelled.bytes →
        w.files.locate spelled = fail .nameTooLong ∧
        w.files.locateEntry spelled = fail .nameTooLong)) ∧
    ∀ (s : Surroundings) (op : Operation Text),
      s.permissions = none ∨ s.permissions = some .native →
      (∀ rest, '~' :: '/' :: rest ∈ op.operands →
        let spelled := home.behind (Path.ofText rest)
        ¬ LosesSlash home rest ∧ (0 : UInt8) ∉ spelled.bytes ∧
          spelled.bytes.length + (nameLimit + 1) ≤ pathLimit) →
      ((op.map w.session.resolve).effect s w).Alike ((op.map w.session.spelledOut).effect s w) := by
  refine ⟨fun rest => ?_, fun s op hs hop => ?_⟩
  · intro found spelled
    have hspelled : w.session.spelledOut ('~' :: '/' :: rest) = spelled := spelledOut_tilde hhome rest
    refine ⟨fun hshort => ?_, fun hlong hnul => ?_⟩
    · rw [← hspelled]
      exact ⟨lookups_spelledOut_iff hhome habsolute rest hshort hfs,
        fun hslash => locate_spelledOut hhome habsolute rest hshort hslash w.files,
        fun hslash => approach_spelledOut hhome habsolute rest hshort hslash w.files⟩
    · have haccept : accept spelled = fail .nameTooLong := by
        have hne : spelled.bytes ≠ [] := by simp [spelled, Path.behind]
        rw [accept, if_neg (by simpa using hnul), if_neg (by simpa using hne), if_pos hlong]
      rw [locate, locateEntry, haccept]
      exact ⟨rfl, rfl⟩
  · refine Operation.effect_alike s hs w hfs fun a ha => ?_
    by_cases htilde : ∃ rest, a = '~' :: '/' :: rest
    · obtain ⟨rest, rfl⟩ := htilde
      obtain ⟨hslash, hnul, hroom⟩ := hop rest ha
      exact alike_spelledOut hhome habsolute rest hslash hnul hroom
    · rw [spelledOut_of_ne (fun rest h => htilde ⟨rest, h⟩)]
      exact .refl _

/-- The file `f` in the directory `h`. -/
def fileAtHome : FileSystem :=
  ⟨.dir ⟨0o755#12, 0⟩ [([0x68], .dir ⟨0o755#12, 0⟩ [([0x66], .leaf 0)])],
    fun _ => ⟨.file [], 0o644#12, 0⟩, 0, []⟩

theorem fileAtHome_wellFormed : fileAtHome.WellFormed :=
  .of_places ⟨rfl, ⟨rfl, trivial, trivial⟩, trivial⟩ (by decide) (by decide)

/-- More slashes in the middle make no difference. -/
theorem tilde_spelled_out_behind_slashes :
    let home := Path.ofString "/h"
    let w : World := ⟨fileAtHome, ⟨[], .ofPath home⟩, []⟩
    let op : Operation Text := .remove false "~///f".toList
    let s : Surroundings := ⟨some .native, .universal⟩
    w.files.WellFormed ∧ w.session.home.path = some home ∧ home.isAbsolute = true ∧
      w.session.resolve "~///f".toList = Path.ofString "/h/f" ∧
      w.files.locate (Path.ofString "/h/f") = w.files.locate (Path.ofString "/h///f") ∧
      op.map w.session.spelledOut = .remove false (Path.ofString "/h///f") ∧
      ((op.map w.session.resolve).effect s w).Alike ((op.map w.session.spelledOut).effect s w) := by
  intro home w op s
  have hkept : ¬ LosesSlash home "//f".toList := by decide
  obtain ⟨hlookups, hcommands⟩ := tilde_spelled_out (w := w) fileAtHome_wellFormed rfl (by decide)
  obtain ⟨⟨hiff, -, -⟩, -⟩ := (hlookups "//f".toList).imp_left fun h => h (by decide)
  refine ⟨fileAtHome_wellFormed, rfl, by decide, rfl, ?_, rfl, ?_⟩
  · exact (hiff.2 fun hslash => absurd hslash hkept).1
  · apply hcommands s op (.inr rfl)
    intro rest hrest
    obtain rfl : rest = "//f".toList := by simpa [op, Operation.operands] using hrest
    exact ⟨hkept, by decide, by decide⟩

/-- The slash behind the name of a file asks for a directory and is lost, so that the file is removed. -/
theorem tilde_loses_slash :
    let home := Path.ofString "/h"
    let w : World := ⟨fileAtHome, ⟨[], .ofPath home⟩, []⟩
    let op : Operation Text := .remove false "~/f/".toList
    let s : Surroundings := ⟨some .native, .universal⟩
    let ran := (op.map w.session.resolve).effect s w
    w.files.WellFormed ∧ w.session.resolve "~/f/".toList = Path.ofString "/h/f" ∧
      home.behind (Path.ofText "f/".toList) = Path.ofString "/h/f/" ∧
      w.files.locate (Path.ofString "/h/f") = .ok [[0x68], [0x66]] ∧
      w.files.locate (Path.ofString "/h/f/") = FileSystem.fail .notDirectory ∧
      ran.verdict = .done .stay ∧ (ran.world.files.node? [[0x68], [0x66]]).isNone = true ∧
      ((op.map w.session.spelledOut).effect s w).verdict =
        .failed (.files (Path.ofString "/h/f/") (.os .notDirectory)) := by
  intro home w op s ran
  exact ⟨fileAtHome_wellFormed, rfl, rfl, rfl, rfl, rfl, rfl, rfl⟩

end Session
end FileShell
