import FileShell.Proofs.ListCommand

namespace FileShell

namespace Command

theorem execute_crashes_iff (s : Surroundings) (w : World) (name : Text) (args : List Text) :
    (execute s w name args).verdict = .crashed ↔ name = ls.name.toList ∧ OutOfYears w args := by
  constructor
  · intro hcrash
    obtain rfl := name_of_execute_crashed hcrash
    rw [(execute_name s w args ls).2] at hcrash
    exact ⟨rfl, (runLs_crashes_iff s.zone w args).1 hcrash⟩
  · rintro ⟨rfl, hyears⟩
    rw [(execute_name s w args ls).2]
    exact (runLs_crashes_iff s.zone w args).2 hyears

end Command

namespace Shell

/-- A line lists a directory with a child that was changed in a year that cannot be written. -/
def BreaksOff (w : World) (r : Reading) : Prop :=
  ∃ t args, r = .line t ∧ Text.words t = Command.ls.name.toList :: args ∧ Command.OutOfYears w args

theorem crashes_iff (s : Settings) (w : World) (r : Reading) : Crashes s w r ↔ BreaksOff w r := by
  unfold Crashes BreaksOff
  constructor
  · rintro ⟨name, e, he, hcrash⟩
    cases r with
    | line t =>
      cases hw : Text.words t with
      | nil =>
        rw [effectOf?_of_words_nil hw] at he
        cases he
      | cons found args =>
        rw [effectOf?_of_words_cons hw] at he
        obtain ⟨rfl, rfl⟩ := Prod.mk.inj (Option.some.inj he)
        obtain ⟨rfl, hyears⟩ := (Command.execute_crashes_iff _ w found args).1 hcrash
        exact ⟨t, args, rfl, hw, hyears⟩
    | _ => cases he
  · rintro ⟨t, args, rfl, hw, hyears⟩
    exact ⟨_, _, effectOf?_of_words_cons hw s w,
      (Command.execute_crashes_iff _ w _ args).2 ⟨rfl, hyears⟩⟩

theorem uneventful_iff {s : Settings} {w : World} {rs : List Reading} :
    Uneventful s w rs ↔ ∀ v ∈ visits s w rs, ¬ BreaksOff v.1 v.2 := by
  simp only [Uneventful, crashes_iff]

/-- Of the commands that end the program the first is the last to be run. -/
theorem exists_first_crash {s : Settings} {w : World} {rs : List Reading}
    (h : ¬ Uneventful s w rs) :
    ∃ before t after, rs = before ++ .line t :: after ∧ Uneventful s w before ∧
      Crashes s (before.foldl (worldAfter s) w) (.line t) := by
  induction rs generalizing w with
  | nil => exact absurd (by simp [Uneventful]) h
  | cons r rs ih =>
    by_cases hcrash : Crashes s w r
    · cases r with
      | line t => exact ⟨[], t, rs, rfl, by simp [Uneventful], hcrash⟩
      | _ =>
        obtain ⟨name, e, he, -⟩ := hcrash
        cases he
    · have hrest : ¬ Uneventful s (worldAfter s w r) rs :=
        fun hrest => h (uneventful_cons.2 ⟨hcrash, hrest⟩)
      obtain ⟨before, t, after, rfl, hbefore, hlast⟩ := ih hrest
      exact ⟨r :: before, t, after, rfl, uneventful_cons.2 ⟨hcrash, hbefore⟩, hlast⟩

theorem Stop.ending_eq_crashed_iff (why : Stop) : why.ending = .crashed ↔ why = .crashed := by
  cases why <;> simp [Stop.ending]

theorem run_of_crash {s : Settings} {w : World} (source : LineSource) {before after : List Reading}
    {t : Text} (htaken : taken source.readings = before ++ .line t :: after)
    (hbefore : Uneventful s w before) (hcrash : Crashes s (before.foldl (worldAfter s) w) (.line t)) :
    let upTo := before ++ [.line t]
    let o := run s source (ofWorld w .unlimited .unlimited)
    o.shell.world = upTo.foldl (worldAfter s) w ∧
      o.shell.out.written = Utf8.encode (banner s ++ shown s source.rendersPrompt w upTo) ∧
      o.shell.err.written = Utf8.encode (reported s w upTo) ∧
      o.shell.asked = (visits s w upTo).map (fun v => promptIn v.1) ∧
      o.ending = .crashed ∧ o.closings = 0 := by
  intro upTo o
  have hf := opened_free s w
  have hloop := loop_of_crash hf s source.rendersPrompt source.readings before after t htaken hbefore
    hcrash
  have hrun := run_of_grows hloop (foldl_turn_grows hf s source.rendersPrompt upTo)
  rw [foldl_turn_world, opened_world] at hrun
  simpa [upTo, goodbye, o] using hrun

theorem run_of_uneventful {s : Settings} {w : World} (source : LineSource)
    (hquiet : Uneventful s w (taken source.readings)) :
    let rs := taken source.readings
    let why := stop source.readings
    let o := run s source (ofWorld w .unlimited .unlimited)
    let last := rs.foldl (worldAfter s) w
    o.shell.world = last ∧
      o.shell.out.written =
        Utf8.encode (banner s ++ shown s source.rendersPrompt w rs ++
          (if why = .left then [] else asking source.rendersPrompt last) ++ goodbye s why.ending) ∧
      o.shell.err.written = Utf8.encode (reported s w rs) ∧
      o.shell.asked = (visits s w rs).map (fun v => promptIn v.1) ++
        (if why = .left then [] else [promptIn last]) ∧
      o.ending = why.ending ∧ o.closings = if why = .crashed then 0 else 1 := by
  intro rs why o last
  have hf := opened_free s w
  have hgrows := foldl_turn_grows hf s source.rendersPrompt rs
  have hworld := foldl_turn_world (opened s w) s source.rendersPrompt rs
  rw [opened_world] at hgrows hworld
  have hloop := loop_eq_foldl hf s source.rendersPrompt source.readings hquiet
  by_cases hleft : why = .left
  · rw [if_pos hleft] at hloop
    have hrun := run_of_grows hloop hgrows
    rw [hworld] at hrun
    simpa [hleft, Stop.ending, o] using hrun
  · -- No line left, so one more was asked for before the readings were found at their end.
    rw [if_neg hleft] at hloop
    have hask := ask_grows (hgrows.free hf) source.rendersPrompt
    have hrun := run_of_grows hloop (hgrows.trans hask)
    rw [ask_world, hworld] at hrun
    simpa [hleft, Stop.ending_eq_crashed_iff, o] using hrun

/-- A run on streams that never fail is the fold of its lines, up to the first that leaves or the end of
the readings, unless one of them lists a directory with a child changed in a year that cannot be
written. The first such line breaks the run off: nothing is read or said after it, and the source is
not closed. -/
theorem run_eq_fold (s : Settings) (source : LineSource) (w : World) :
    let rs := taken source.readings
    let why := stop source.readings
    let o := run s source (ofWorld w .unlimited .unlimited)
    ((∀ v ∈ visits s w rs, ¬ BreaksOff v.1 v.2) →
      let last := rs.foldl (worldAfter s) w
      let question := if why = .left then [] else asking source.rendersPrompt last
      o.shell.world = last ∧
      o.shell.out.written =
        Utf8.encode (banner s ++ shown s source.rendersPrompt w rs ++ question ++
          goodbye s why.ending) ∧
      o.shell.err.written = Utf8.encode (reported s w rs) ∧
      o.shell.asked = (visits s w rs).map (fun v => promptIn v.1) ++
        (if why = .left then [] else [promptIn last]) ∧
      o.ending = why.ending ∧ o.closings = if why = .crashed then 0 else 1) ∧
    (∀ before t after, rs = before ++ .line t :: after →
      (∀ v ∈ visits s w before, ¬ BreaksOff v.1 v.2) →
      BreaksOff (before.foldl (worldAfter s) w) (.line t) →
      let upTo := before ++ [.line t]
      o.shell.world = upTo.foldl (worldAfter s) w ∧
      o.shell.out.written = Utf8.encode (banner s ++ shown s source.rendersPrompt w upTo) ∧
      o.shell.err.written = Utf8.encode (reported s w upTo) ∧
      o.shell.asked = (visits s w upTo).map (fun v => promptIn v.1) ∧
      o.ending = .crashed ∧ o.closings = 0) ∧
    (o.ending = .crashed ↔ (∃ v ∈ visits s w rs, BreaksOff v.1 v.2) ∨ why = .crashed) := by
  intro rs why o
  refine ⟨fun hnone => run_of_uneventful source (uneventful_iff.2 hnone),
    fun before t after htaken hbefore hbreaks => run_of_crash source htaken (uneventful_iff.2 hbefore)
      ((crashes_iff s _ _).2 hbreaks), ?_⟩
  by_cases hquiet : Uneventful s w rs
  · obtain ⟨-, -, -, -, hending, -⟩ := run_of_uneventful source hquiet
    have hnone : ¬ ∃ v ∈ visits s w rs, BreaksOff v.1 v.2 := by
      rintro ⟨v, hv, hbreaks⟩
      exact uneventful_iff.1 hquiet v hv hbreaks
    rw [show o.ending = why.ending from hending, Stop.ending_eq_crashed_iff, or_iff_right hnone]
  · obtain ⟨before, t, after, htaken, hbefore, hcrash⟩ := exists_first_crash hquiet
    obtain ⟨-, -, -, -, hending, -⟩ := run_of_crash source htaken hbefore hcrash
    have hsome : ∃ v ∈ visits s w rs, BreaksOff v.1 v.2 := by
      by_contra hnone
      exact hquiet (uneventful_iff.2 fun v hv hbreaks => hnone ⟨v, hv, hbreaks⟩)
    exact iff_of_true hending (.inl hsome)

theorem breaksOff_late_file :
    BreaksOff (Command.besideChanged (8210266876800 * 1000000000)) (.line "ls".toList) :=
  ⟨_, [], rfl, by decide, _, rfl, _, List.mem_singleton_self _, _, rfl, .inr (by decide)⟩

/-- Behind an `ls` that breaks off no directory is made, though the fold of the lines makes it. -/
theorem run_breaks_off_at_late_file :
    let s : Settings := ⟨⟨none, .universal⟩, ⟨false⟩, false⟩
    let w := Command.besideChanged (8210266876800 * 1000000000)
    let source : LineSource := ⟨false, [.line "ls".toList, .line "mkdir b".toList]⟩
    let o := run s source (ofWorld w .unlimited .unlimited)
    o.ending = .crashed ∧ o.closings = 0 ∧ stop source.readings = .ended ∧
      o.shell.world.files.item? [[0x62]] = none ∧
      ((taken source.readings).foldl (worldAfter s) w).files.item? [[0x62]] =
        some (.directory 0o755#12) := by
  intro s w source o
  have htaken : taken source.readings = [] ++ .line "ls".toList :: [.line "mkdir b".toList] := by decide
  have hcrash : Crashes s w (.line "ls".toList) := (crashes_iff s w _).2 breaksOff_late_file
  have hbefore : Uneventful s w [] := by simp [Uneventful]
  obtain ⟨hworld, -, -, -, hending, hclosings⟩ := run_of_crash source htaken hbefore hcrash
  have hls : worldAfter s w (.line "ls".toList) = w := by
    have hwords : Text.words "ls".toList = Command.ls.name.toList :: [] := by decide
    rw [worldAfter_of_words_cons hwords, (Command.execute_name _ _ _ .ls).1]
    exact Command.runLs_world .universal w []
  refine ⟨hending, hclosings, by decide, ?_, ?_⟩
  · rw [show o.shell.world = _ from hworld, List.nil_append, List.foldl_cons, hls]
    rfl
  · rw [htaken, List.nil_append, List.foldl_cons, hls]
    decide +kernel

end Shell
end FileShell
