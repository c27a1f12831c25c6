import FileShell.Proofs.CursorWords
import FileShell.Proofs.DirectoryListings
import FileShell.Proofs.SessionDirectory
import FileShell.Proofs.TextPaths
import FileShell.Proofs.Utf8Strict

namespace FileShell

namespace Path

/-- Two absolute paths are equal component by component, where `.` does not count. -/
def Same (p q : Path) : Prop :=
  p.isAbsolute = true ∧ q.isAbsolute = true ∧
    p.components.filter (· ≠ .here) = q.components.filter (· ≠ .here)

end Path

namespace Text

/-- Words that say nothing but home. -/
def SaysHome (ws : List Text) : Prop := ws = [['~']] ∨ ws = [['~', '/']]

end Text

namespace Session

/-- Behind what stands in the line, a text adds one word, and the word means a path. -/
def Accepts (session : Session) (pre replacement : Text) (path : Path) : Prop :=
  ∃ t, Text.words (pre ++ replacement) = Text.words pre ++ [t] ∧ (session.resolve t).Same path

end Session

namespace Completer

open Text

/-- What a word without blanks and quotes can be up to its last slash. -/
structure IsTypedDir (dir : Text) : Prop where
  noQuote : '"' ∉ dir
  noBlank : ∀ c ∈ dir, isBlank c = false
  ends : ∀ c ∈ dir.getLast?, c = '/'

/-- A candidate is made from an entry of a directory whose name is UTF-8. -/
structure MadeFrom (fs : FileSystem) (typedDir : Text) (dir : Path) (c : Candidate)
    (name : FileName) (text : Text) : Prop where
  listed : ∃ entries node, fs.list dir = .ok entries ∧ (name, node) ∈ entries
  spelled : Utf8.decode? name = some text
  made : c = pathCandidate typedDir text (fs.isDirectory (dir.join ⟨name⟩))

theorem mem_pathCandidates_iff {completer : Completer} {fs : FileSystem} {word : Text}
    {c : Candidate} :
    c ∈ completer.pathCandidates fs word ↔ ∃ name text, offers (splitAtSlash word).2 text = true ∧
      MadeFrom fs (splitAtSlash word).1 (completer.searched (splitAtSlash word).1) c name text := by
  unfold pathCandidates
  dsimp only
  cases hlist : fs.list (completer.searched (splitAtSlash word).1) with
  | error fault =>
    refine ⟨fun h => absurd h List.not_mem_nil, ?_⟩
    rintro ⟨name, text, -, ⟨entries, node, hentries, -⟩, -, -⟩
    rw [hlist] at hentries
    cases hentries
  | ok entries =>
    rw [List.mem_mergeSort, List.mem_filterMap]
    constructor
    · rintro ⟨⟨name, node⟩, hmem, hmade⟩
      dsimp only at hmade
      split at hmade
      · next text hspelled =>
        split_ifs at hmade with hoffers
        exact ⟨name, text, hoffers, ⟨entries, node, hlist, hmem⟩, hspelled,
          (Option.some.inj hmade).symm⟩
      · cases hmade
    · rintro ⟨name, text, hoffers, ⟨entries', node, hentries, hmem⟩, hspelled, rfl⟩
      obtain rfl := Except.ok.inj (hlist.symm.trans hentries)
      exact ⟨(name, node), hmem, by simp [hspelled, hoffers]⟩

theorem MadeFrom.isPiece {fs : FileSystem} (hfs : fs.WellFormed) {typedDir : Text} {dir : Path}
    {c : Candidate} {name : FileName} {text : Text} (h : MadeFrom fs typedDir dir c name text) :
    name = Utf8.encode text ∧ FileName.IsPiece name := by
  obtain ⟨entries, node, hlist, hmem⟩ := h.listed
  obtain ⟨place, folder, hopens⟩ := FileSystem.list_eq_ok_iff.1 hlist
  have hnode := FileSystem.node?_concat_of_mem hfs hopens.holds hmem
  exact ⟨(Utf8.encode_of_decode? h.spelled).symm, (hfs.isProper_of_node? hnode name (by simp)).toIsPiece⟩

/-- What ends a candidate. -/
def ending (isDir : Bool) : Char := if isDir then '/' else ' '

theorem replacement_pathCandidate (typedDir text : Text) (isDir : Bool) :
    (pathCandidate typedDir text isDir).replacement = typedDir ++ (text ++ [ending isDir]) := by
  cases isDir <;> exact List.append_assoc ..

section Name

variable {session : Session} {commands : List Text} {dir text more : Text}

theorem words_candidate (hdir : IsTypedDir dir) (htext : IsBare text) (isDir : Bool) :
    words (dir ++ (text ++ [ending isDir])) = [dir ++ (text ++ if isDir then ['/'] else [])] := by
  cases isDir with
  | true =>
    have hslash : IsBare ['/'] := by decide
    have hname := hslash.prepend htext.noQuote htext.noBlank
    exact (hname.prepend hdir.noQuote hdir.noBlank).words_eq
  | false =>
    have hword := htext.prepend hdir.noQuote hdir.noBlank
    rw [← List.append_assoc, if_neg Bool.false_ne_true, List.append_nil]
    exact hword.words_concat_blank (by decide)

/-- The one word that a candidate adds goes on from the directory, and it has the characters of the
candidate but for quotes. -/
theorem of_words_candidate (hdir : IsTypedDir dir) {rest t : Text} (h : words (dir ++ rest) = [t]) :
    (∃ more, t = dir ++ more) ∧ t.Sublist ((dir ++ rest).filter (· ≠ '"')) := by
  constructor
  · obtain rfl | hne := eq_or_ne dir []
    · exact ⟨t, rfl⟩
    · have hspells := spellsWord_self hdir.noQuote hdir.noBlank
      rw [words, hspells.wordsFrom_append, List.append_nil] at h
      obtain ⟨more, ws, hmore⟩ := exists_wordsFrom_eq (List.reverse_ne_nil_iff.2 hne) false rest
      rw [hmore, List.reverse_reverse] at h
      exact ⟨more, (List.cons.inj h).1.symm⟩
  · have hsub := flatten_wordsFrom_sublist false [] (dir ++ rest)
    rw [← words, h] at hsub
    simpa using hsub

end Name

section Resolve

variable {session : Session} {commands : List Text} {dir more : Text} {name : FileName}

theorem isAbsolute_searched (session : Session) (commands : List Text) (dir : Text) :
    (searched ⟨commands, session.home, session.directory⟩ dir).isAbsolute = true := by
  unfold searched
  split_ifs
  · exact Place.isAbsolute_path session.place
  · exact session.isAbsolute_resolve dir

/-- A word that goes on from the directory that was searched means what lies in it; with no directory
before it, the word must not be a path of another kind. -/
theorem components_resolve_append (hends : ∀ c ∈ dir.getLast?, c = '/')
    (hmore : dir = [] → session.home.expand more = Path.ofText more ∧
      (Path.ofText more).isAbsolute = false) :
    (session.resolve (dir ++ more)).components =
      (searched ⟨commands, session.home, session.directory⟩ dir).components ++
        (Path.ofText more).components := by
  obtain rfl | hne := eq_or_ne dir []
  · obtain ⟨hexpand, hrelative⟩ := hmore rfl
    rw [List.nil_append, Session.resolve, hexpand, Path.components_join hrelative]
    rfl
  · obtain ⟨hcomponents, habsolute⟩ := session.home.expand_append hne hends more
    have hsearched : searched ⟨commands, session.home, session.directory⟩ dir =
        session.directory.join (session.home.expand dir) := if_neg (by simpa using hne)
    rw [hsearched, Session.resolve]
    cases h : (session.home.expand dir).isAbsolute with
    | true =>
      rw [Path.join, if_pos (habsolute.trans h), Path.join, if_pos h, hcomponents]
    | false =>
      rw [Path.components_join (habsolute.trans h), Path.components_join h, hcomponents,
        List.append_assoc]

theorem same_iff (session : Session) (commands : List Text) (dir t : Text) (hname : name.IsPiece) :
    let found := searched ⟨commands, session.home, session.directory⟩ dir
    (session.resolve t).Same (found.join ⟨name⟩) ↔
      (session.resolve t).components.filter (· ≠ .here) =
        found.components.filter (· ≠ .here) ++ [.name name] := by
  intro found
  have hfound := Path.isAbsolute_join found ⟨name⟩ (isAbsolute_searched session commands dir)
  rw [Path.Same, Path.components_join_name hname, List.filter_append]
  simp [session.isAbsolute_resolve t, hfound]

theorem resolve_of_saysHome {home : Path} (hhome : session.home.path = some home) {ws : List Text}
    (h : SaysHome ws) : ∃ t, ws = [t] ∧ session.resolve t = session.directory.join home := by
  obtain ⟨place, ⟨path⟩⟩ := session
  cases hhome
  obtain rfl | rfl := h
  · exact ⟨_, rfl, rfl⟩
  · exact ⟨_, rfl, rfl⟩

theorem expand_of_sublist {home : Home} {text t : Text} {c : Char} (hslash : '/' ∉ text)
    (hsub : t.Sublist (text ++ [c])) (hhome : home.path = none ∨ ¬ SaysHome [t]) :
    home.expand t = Path.ofText t := by
  refine Home.expand_eq_ofText (hhome.imp_right fun hhome => ⟨fun ht => ?_, fun rest ht => ?_⟩)
  · exact hhome (.inl (congrArg (fun w => [w]) ht))
  · obtain ⟨front, last, rfl, hfront, hlast⟩ := List.sublist_append_iff.1 hsub
    have hlength := hlast.length_le
    obtain - | ⟨d, - | ⟨e, front⟩⟩ := front
    · rw [List.nil_append] at ht
      simp [ht] at hlength
    · obtain ⟨rfl, rfl⟩ := List.cons.inj ht
      obtain rfl := List.length_eq_zero_iff.1 (Nat.le_zero.1 (Nat.le_of_succ_le_succ hlength))
      exact hhome (.inr rfl)
    · obtain ⟨rfl, hrest⟩ := List.cons.inj ht
      obtain ⟨rfl, -⟩ := List.cons.inj hrest
      exact hslash (hfront.subset (by simp))

end Resolve

section Name

variable {session : Session} {commands : List Text} {dir text : Text} {isDir : Bool}
  (hdir : IsTypedDir dir) (hname : FileName.IsPiece (Utf8.encode text))
  (hhome : session.home.path = none ∨ ¬ SaysHome (words (dir ++ (text ++ [ending isDir]))))
include hdir hname hhome

theorem accepts_of_isBare (htext : IsBare text) :
    ∃ t, words (dir ++ (text ++ [ending isDir])) = [t] ∧ (session.resolve t).Same
      ((searched ⟨commands, session.home, session.directory⟩ dir).join ⟨Utf8.encode text⟩) := by
  have hslash : '/' ∉ text := fun h => hname.noSlash (Path.slash_mem_encode.2 h)
  have hwords := words_candidate hdir htext isDir
  have hends : (Path.ofText (text ++ if isDir then ['/'] else [])).components =
      [.name (Utf8.encode text)] := by
    have hname := Path.components_name hname
    cases isDir
    · rw [if_neg Bool.false_ne_true, List.append_nil]
      exact hname
    · rw [if_pos rfl, Path.ofText_append_slash, Path.components_behind]
      exact (List.append_nil _).trans hname
  refine ⟨_, hwords, (same_iff session commands dir _ hname).2 ?_⟩
  rw [components_resolve_append hdir.ends, hends, List.filter_append]
  · rfl
  · rintro rfl
    obtain ⟨-, hsub⟩ := of_words_candidate hdir hwords
    rw [hwords] at hhome
    refine ⟨expand_of_sublist hslash (hsub.trans (List.filter_sublist ..)) hhome, ?_⟩
    obtain ⟨c, more, rfl⟩ := List.exists_cons_of_ne_nil htext.ne_nil
    have hc : c ≠ '/' := fun hc => hslash (by simp [hc])
    rw [Path.isAbsolute_ofText]
    simpa using hc

theorem name_mem_of_same {more : Text} (hwords : words (dir ++ (text ++ [ending isDir])) = [dir ++ more])
    (hsame : (session.resolve (dir ++ more)).Same
      ((searched ⟨commands, session.home, session.directory⟩ dir).join ⟨Utf8.encode text⟩)) :
    .name (Utf8.encode text) ∈ (Path.ofText more).components := by
  have hslash : '/' ∉ text := fun h => hname.noSlash (Path.slash_mem_encode.2 h)
  have hcomponents := (same_iff session commands dir _ hname).1 hsame
  have hexpand (hd : dir = []) : session.home.expand more = Path.ofText more := by
    subst hd
    obtain ⟨-, hsub⟩ := of_words_candidate hdir hwords
    rw [hwords] at hhome
    exact expand_of_sublist hslash (hsub.trans (List.filter_sublist ..)) hhome
  by_cases hroot : dir = [] ∧ (Path.ofText more).isAbsolute = true
  · -- The word begins at the root, so that all of the path is spelled in it.
    obtain ⟨rfl, hroot⟩ := hroot
    rw [List.nil_append, Session.resolve, hexpand rfl, Path.join, if_pos hroot] at hcomponents
    exact (List.mem_filter.1 (hcomponents ▸ List.mem_append_right _ List.mem_cons_self)).1
  · have hrelative (hd : dir = []) : (Path.ofText more).isAbsolute = false := by
      simpa [hd] using hroot
    rw [components_resolve_append hdir.ends fun hd => ⟨hexpand hd, hrelative hd⟩,
      List.filter_append] at hcomponents
    have hone := List.append_cancel_left hcomponents
    exact (List.mem_filter.1 (hone ▸ List.mem_cons_self)).1

/-- A word has no quotes, and no blanks if there are no quotes to keep them, so that a name with either
is not spelled in one. -/
theorem isBare_of_accepts {t : Text} (hwords : words (dir ++ (text ++ [ending isDir])) = [t])
    (hsame : (session.resolve t).Same
      ((searched ⟨commands, session.home, session.directory⟩ dir).join ⟨Utf8.encode text⟩)) :
    IsBare text := by
  obtain ⟨⟨more, rfl⟩, hsub⟩ := of_words_candidate hdir hwords
  have hspelled : ∀ c ∈ text, c ∈ dir ++ more := fun c hc => List.mem_append_right dir <|
    Path.mem_of_name_mem_components (name_mem_of_same hdir hname hhome hwords hsame) c hc
  have hquote : '"' ∉ text := by
    intro h
    have hmem := hsub.subset (hspelled _ h)
    simp at hmem
  have hending : '"' ≠ ending isDir := by cases isDir <;> decide
  have hplain : dir ++ more ∈ plainWords (dir ++ (text ++ [ending isDir])) := by
    rw [← words_eq_plainWords (by simp [hdir.noQuote, hquote, hending]), hwords]
    exact List.mem_cons_self
  refine ⟨?_, hquote, fun c hc => isBlank_of_mem_plainWords hplain c (hspelled c hc)⟩
  rintro rfl
  exact hname.ne_nil rfl

end Name

theorem accepts_iff_words {pre : Text} (hquote : '"' ∉ pre) (hne : pre ≠ [])
    (hblank : ∀ c ∈ pre.getLast?, isBlank c = true) (session : Session) (replacement : Text)
    (path : Path) :
    session.Accepts pre replacement path ↔
      ∃ t, words replacement = [t] ∧ (session.resolve t).Same path := by
  obtain ⟨init, c, rfl⟩ := (List.eq_nil_or_concat pre).resolve_left hne
  rw [List.concat_eq_append] at *
  have hc : isBlank c = true := hblank c (by simp)
  have hinit : '"' ∉ init := fun h => hquote (List.mem_append_left _ h)
  have happend (rest : Text) : words (init ++ c :: rest) = words init ++ words rest :=
    wordsFrom_append_blank hinit hc [] rest
  have hpre : words (init ++ [c]) = words init := (happend []).trans (List.append_nil _)
  rw [Session.Accepts, hpre, List.append_assoc, List.singleton_append, happend]
  simp

theorem exists_completed_word {line : Text} (hwords : 1 < (wordsToCursor line).length) :
    ∃ pre word, line = pre ++ word ∧ (wordsToCursor line).getLast?.getD [] = word ∧ pre ≠ [] ∧
      (∀ c ∈ pre.getLast?, isBlank c = true) ∧ ∀ c ∈ word, isBlank c = false := by
  obtain ⟨pre, word, rfl, hblank, hword⟩ := exists_cursor_word line
  have hne : pre ++ word ≠ [] := by
    intro h
    rw [h] at hwords
    simp [wordsToCursor, plainWords, runs, endsInBlank] at hwords
  have hcursor := wordsToCursor_append hblank hword hne
  refine ⟨pre, word, rfl, by simp [hcursor], ?_, hblank, hword⟩
  rintro rfl
  change 1 < (wordsToCursor ([] ++ word)).length at hwords
  rw [hcursor] at hwords
  exact Nat.lt_irrefl 1 hwords

/-- Behind the first word of a line a path is completed, which starts as far from the cursor as it is
long. -/
theorem complete_eq (completer : Completer) (fs : FileSystem) {line word : Text}
    (hwords : 1 < (wordsToCursor line).length)
    (hlast : (wordsToCursor line).getLast?.getD [] = word) :
    completer.complete fs line =
      ((Utf8.encode line).length - (Utf8.encode word).length, completer.pathCandidates fs word) := by
  obtain ⟨pre, found, rfl, hfound, hne, hblank, hword⟩ := exists_completed_word hwords
  obtain rfl : found = word := hfound.symm.trans hlast
  have hnot : ¬ pre.all isBlank = true := by
    intro hall
    have hnone : plainWords pre = [] := plainWords_eq_nil_iff.2 (List.all_eq_true.1 hall)
    rw [wordsToCursor_append hblank hword (by simp [hne]), hnone] at hwords
    exact Nat.lt_irrefl 1 hwords
  rw [complete_append hblank hword, if_neg hnot, Utf8.encode_append, List.length_append,
    Nat.add_sub_cancel]

theorem isTypedDir_splitAtSlash {word : Text} (hquote : '"' ∉ word)
    (hword : ∀ c ∈ word, isBlank c = false) : IsTypedDir (splitAtSlash word).1 := by
  obtain ⟨dir, name, hsplit, rfl, -, hends⟩ := splitAtSlash_eq word
  rw [hsplit]
  exact ⟨fun h => hquote (List.mem_append_left _ h), fun c hc => hword c (List.mem_append_left _ hc),
    hends⟩

/-- Every candidate for a path is made from an entry of the directory that the word names, and the
candidate put into the line adds one word that means this entry, exactly if the name of the entry has
neither blanks nor quotes. Where home is known and the word would be `~`, it means home. -/
theorem candidate_names_entry_iff {fs : FileSystem} (hfs : fs.WellFormed) (session : Session)
    (commands : List Text) {line : Text} (hquote : '"' ∉ line)
    (hwords : 1 < (wordsToCursor line).length) :
    let completer : Completer := ⟨commands, session.home, session.directory⟩
    let typedDir := (splitAtSlash ((wordsToCursor line).getLast?.getD [])).1
    let found := completer.searched typedDir
    ∃ start offered pre,
      completer.completeAt fs line (Utf8.encode line).length = some (start, offered) ∧
      upTo start line = some pre ∧ ∀ c ∈ offered,
        (∃ name text, MadeFrom fs typedDir found c name text) ∧
        ∀ name text, MadeFrom fs typedDir found c name text →
          let accepted := session.Accepts pre c.replacement (found.join ⟨name⟩)
          (∀ home, session.home.path = some home → SaysHome (words c.replacement) →
            (accepted ↔ (session.directory.join home).Same (found.join ⟨name⟩))) ∧
          (session.home.path = none ∨ ¬ SaysHome (words c.replacement) →
            (accepted ↔ IsBare text)) := by
  obtain ⟨pre, word, rfl, hlast, hne, hblank, hword⟩ := exists_completed_word hwords
  intro completer typedDir found
  have hpre : '"' ∉ pre := fun h => hquote (List.mem_append_left _ h)
  have hdir : IsTypedDir typedDir := by
    have h := @isTypedDir_splitAtSlash word (fun h => hquote (List.mem_append_right _ h)) hword
    rwa [← hlast] at h
  have hstart : (Utf8.encode (pre ++ word)).length - (Utf8.encode word).length =
      (Utf8.encode pre).length := by
    rw [Utf8.encode_append, List.length_append, Nat.add_sub_cancel]
  refine ⟨(Utf8.encode pre).length, completer.pathCandidates fs word, pre, ?_, upTo_append pre word,
    fun c hc => ⟨?_, fun name text hmade => ?_⟩⟩
  · rw [completeAt_end, complete_eq completer fs hwords hlast, hstart]
  · obtain ⟨name, text, -, hmade⟩ := mem_pathCandidates_iff.1 hc
    rw [← hlast] at hmade
    exact ⟨name, text, hmade⟩
  · obtain ⟨rfl, hname⟩ := hmade.isPiece hfs
    have hreplacement := congrArg Candidate.replacement hmade.made
    rw [replacement_pathCandidate] at hreplacement
    dsimp only
    rw [accepts_iff_words hpre hne hblank, hreplacement]
    refine ⟨fun home hhome hsays => ?_, fun hhome => ⟨?_, ?_⟩⟩
    · obtain ⟨t, ht, hresolve⟩ := resolve_of_saysHome hhome hsays
      simp [ht, hresolve]
    · rintro ⟨t, ht, hsame⟩
      exact isBare_of_accepts hdir hname hhome ht hsame
    · exact accepts_of_isBare hdir hname hhome

/-- A file `a b` and a directory `docs`. -/
def spacedNames : FileSystem :=
  ⟨.dir ⟨0o755#12, 0⟩ [(Utf8.encode "a b".toList, .leaf 0),
    (Utf8.encode "docs".toList, .dir ⟨0o755#12, 0⟩ [])], fun _ => ⟨.file [], 0o644#12, 0⟩, 0, []⟩

theorem spacedNames_wellFormed : spacedNames.WellFormed :=
  .of_places ⟨rfl, trivial, rfl, trivial, trivial⟩ (by decide) (by decide)

/-- The directory `docs` is named by its candidate. -/
theorem candidate_names_docs :
    let session : Session := ⟨[], .unknown⟩
    let line := "ls d".toList
    let c : Candidate := ⟨"docs/".toList, "docs/".toList⟩
    spacedNames.WellFormed ∧ '"' ∉ line ∧ 1 < (wordsToCursor line).length ∧
      (∃ offered, completeAt ⟨[], session.home, session.directory⟩ spacedNames line 4 =
        some (3, offered) ∧ c ∈ offered) ∧
      session.Accepts "ls ".toList c.replacement (Path.ofString "/docs") := by
  intro session line c
  have hquote : '"' ∉ line := by decide
  have hwords : 1 < (wordsToCursor line).length := by decide
  have hmade : MadeFrom spacedNames [] session.directory c (Utf8.encode "docs".toList)
      "docs".toList := ⟨⟨_, .dir ⟨0o755#12, 0⟩ [], rfl, by simp⟩, by decide, rfl⟩
  have hc : c ∈ pathCandidates ⟨[], session.home, session.directory⟩ spacedNames ['d'] :=
    mem_pathCandidates_iff.2 ⟨_, _, by decide, hmade⟩
  have hat : completeAt ⟨[], session.home, session.directory⟩ spacedNames line 4 =
      some (3, pathCandidates ⟨[], session.home, session.directory⟩ spacedNames ['d']) :=
    (completeAt_end _ spacedNames line).trans (congrArg some (complete_eq _ _ hwords rfl))
  obtain ⟨start, offered, pre, hcomplete, hpre, haccepted⟩ :=
    candidate_names_entry_iff spacedNames_wellFormed session [] hquote hwords
  obtain ⟨rfl, rfl⟩ := Prod.mk.inj (Option.some.inj (hat.symm.trans hcomplete))
  obtain rfl : "ls ".toList = pre := Option.some.inj ((upTo_append "ls ".toList ['d']).symm.trans hpre)
  obtain ⟨-, hiff⟩ := (haccepted c hc).2 _ _ hmade
  exact ⟨spacedNames_wellFormed, hquote, hwords, ⟨_, hat, hc⟩,
    (hiff (.inl rfl)).2 (by decide)⟩

/-- The file `a b` is offered as two words. -/
theorem candidate_in_two_words :
    let session : Session := ⟨[], .unknown⟩
    let line := "ls ".toList
    let c : Candidate := ⟨"a b".toList, "a b ".toList⟩
    spacedNames.WellFormed ∧ '"' ∉ line ∧ 1 < (wordsToCursor line).length ∧
      (∃ offered, completeAt ⟨[], session.home, session.directory⟩ spacedNames line 3 =
        some (3, offered) ∧ c ∈ offered) ∧
      upTo 3 line = some line ∧
      words (line ++ c.replacement) = ["ls".toList, ['a'], ['b']] ∧
      ∀ path, ¬ session.Accepts line c.replacement path := by
  intro session line c
  have hmade : MadeFrom spacedNames [] session.directory c (Utf8.encode "a b".toList)
      "a b".toList := ⟨⟨_, .leaf 0, rfl, by simp⟩, by decide, rfl⟩
  have hc : c ∈ pathCandidates ⟨[], session.home, session.directory⟩ spacedNames [] :=
    mem_pathCandidates_iff.2 ⟨_, _, by decide, hmade⟩
  have hcursor : 1 < (wordsToCursor line).length := by decide
  have hat : completeAt ⟨[], session.home, session.directory⟩ spacedNames line 3 =
      some (3, pathCandidates ⟨[], session.home, session.directory⟩ spacedNames []) :=
    (completeAt_end _ spacedNames line).trans (congrArg some (complete_eq _ _ hcursor rfl))
  have hwords : words (line ++ c.replacement) = ["ls".toList, ['a'], ['b']] := by decide
  refine ⟨spacedNames_wellFormed, by decide, hcursor, ⟨_, hat, hc⟩, upTo_append line [], hwords, ?_⟩
  rintro path ⟨t, ht, -⟩
  have hline : words line = ["ls".toList] := by decide
  rw [hwords, hline] at ht
  simpa using congrArg List.length ht

end Completer
end FileShell
