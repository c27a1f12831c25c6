import FileShell.Proofs.RunsAsFolds

namespace FileShell

namespace Command

/-- What fails says nothing. -/
def Heard (e : Effect) : Prop := e.output ≠ [] → e.verdict = .done .stay ∨ e.verdict = .crashed

theorem heard_refuse (w : World) (failure : Failure) : Heard (w.refuse failure) :=
  fun h => absurd rfl h

theorem heard_finish (w : World) (output : Text) : Heard (w.finish output) := fun _ => .inl rfl

theorem heard_leave (w : World) (path : Path) (attempt : FileSystem.Attempt) :
    Heard (w.leave path attempt) := by
  obtain ⟨files, failure⟩ := attempt
  cases failure with
  | none => exact heard_finish _ _
  | some fault => exact heard_refuse _ _

theorem heard_runLs (zone : Zone) (w : World) (args : List Text) : Heard (runLs zone w args) := by
  unfold runLs
  dsimp only
  split_ifs
  · exact heard_refuse w _
  · exact heard_refuse w _
  · split
    · exact heard_refuse w _
    · split_ifs
      · exact heard_finish w _
      · exact fun _ => .inr rfl

theorem heard_runSearch (w : World) (args : List Text) : Heard (runSearch w args) := by
  unfold runSearch
  split
  · exact heard_refuse w _
  · split
    · exact heard_refuse w _
    · exact fun _ => .inl rfl

theorem heard_runCd (w : World) (args : List Text) : Heard (runCd w args) := by
  unfold runCd
  split
  · exact heard_refuse w _
  · dsimp only
    split_ifs
    · exact heard_refuse w _
    · split
      · exact heard_refuse w _
      · exact fun _ => .inl rfl

theorem heard_runCp (w : World) (args : List Text) : Heard (runCp w args) := by
  unfold runCp
  split
  · dsimp only
    split_ifs
    · exact heard_refuse w _
    · exact heard_leave w _ _
  · exact heard_refuse w _

theorem heard_runMv (w : World) (args : List Text) : Heard (runMv w args) := by
  unfold runMv
  split
  · dsimp only
    split
    · exact heard_refuse w _
    · exact heard_leave w _ _
  · exact heard_refuse w _

theorem heard_removal (w : World) (recursive : Bool) (path : Path) :
    Heard (removal w recursive path) := by
  unfold removal
  split
  · exact heard_refuse w _
  · split
    · exact heard_leave w _ _
    · exact heard_leave w _ _
    · exact heard_leave w _ _

theorem heard_runRm (w : World) (args : List Text) : Heard (runRm w args) := by
  unfold runRm
  split
  · exact heard_refuse w _
  · split_ifs
    · exact heard_refuse w _
    · exact heard_removal w _ _
  · split_ifs
    · exact heard_removal w _ _
    · exact heard_removal w _ _

theorem heard_runMkdir (w : World) (args : List Text) : Heard (runMkdir w args) := by
  unfold runMkdir
  split
  · exact heard_refuse w _
  · exact heard_leave w _ _

theorem heard_runChmod (permissions : Option PermissionControl) (w : World) (args : List Text) :
    Heard (runChmod permissions w args) := by
  unfold runChmod
  split
  · exact heard_finish w _
  · split
    · split
      · exact heard_refuse w _
      · exact heard_leave _ _ _
    · exact heard_refuse w _

theorem heard_run (s : Surroundings) (w : World) (args : List Text) (c : Command) :
    Heard (c.run s w args) := by
  cases c with
  | cd => exact heard_runCd w args
  | chmod => exact heard_runChmod s.permissions w args
  | cp => exact heard_runCp w args
  | exit => exact fun h => absurd rfl h
  | help => exact heard_finish w _
  | ls => exact heard_runLs s.zone w args
  | mkdir => exact heard_runMkdir w args
  | mv => exact heard_runMv w args
  | pwd => exact heard_finish w _
  | rm => exact heard_runRm w args
  | search => exact heard_runSearch w args

theorem heard_execute (s : Surroundings) (w : World) (name : Text) (args : List Text) :
    Heard (execute s w name args) := by
  unfold execute
  split
  · exact heard_refuse w _
  · exact heard_run s w args _

end Command

namespace Shell

theorem dispatch_capped {shell : Shell} {k : Nat} {sent : Bytes} (hout : shell.out = .capped k sent)
    (hsent : sent.length ≤ k) (s : Surroundings) (name : Text) (args : List Text) :
    let e := Command.execute s shell.world name args
    let said := sent ++ Utf8.encode e.output
    shell.dispatch s name args =
      ({ shell with world := e.world, out := .capped k said }.note (e.events.map .event),
        if said.length ≤ k then e.verdict else .failed (.stream Sink.full)) := by
  unfold dispatch
  rw [hout]
  generalize Command.execute s shell.world name args = e
  intro e' said
  by_cases hfits : said.length ≤ k
  · have hwrite : (Sink.capped k sent).write e.output = (.capped k said, none) :=
      Sink.write_capped_of_le hfits
    simp only [hwrite, if_pos hfits]
    rfl
  · have hsome : e.output ≠ [] := by
      intro hnone
      simp [said, e', hnone, Utf8.encode_nil, hsent] at hfits
    have hwrite : (Sink.capped k sent).write e.output = (.capped k said, some Sink.full) :=
      Sink.write_capped_of_lt hsome (Nat.lt_of_not_ge hfits)
    simp only [hwrite, if_neg hfits]
    rfl

/-- A shell that goes as another does, with room for `k` bytes in all of what that one says. -/
structure Follows (k : Nat) (free limited : Shell) : Prop where
  world : limited.world = free.world
  out : limited.out = .capped k free.out.written
  err : limited.err.NeverFails
  asked : limited.asked = free.asked

section Step
variable {k : Nat} {free limited : Shell}

/-- All that has been said, once a line has been asked for. -/
def saidAsking (shell : Shell) : Bytes :=
  shell.out.written ++ Utf8.encode (asking false shell.world)

theorem Follows.prompt (h : Follows k free limited) : limited.prompt = promptIn free.world := by
  rw [promptIn, ← h.world]
  rfl

theorem Follows.ask (h : Follows k free limited) (hf : free.Free)
    (hfits : free.saidAsking.length ≤ k) :
    limited.ask false = ((limited.ask false).1, none) ∧
      Follows k (free.ask false).1 (limited.ask false).1 := by
  have hwrite : (Sink.capped k free.out.written).write ('\n' :: promptIn free.world) =
      (.capped k free.saidAsking, none) := Sink.write_capped_of_le hfits
  have hask : limited.ask false =
      ({ limited with
          out := .capped k free.saidAsking
          asked := limited.asked ++ [limited.prompt] }, none) := by
    simp only [Shell.ask, Bool.false_eq_true, if_false, deliver, writeOut, flushOut, h.prompt, h.out,
      hwrite, Sink.flush_capped]
    rw [← h.prompt]
    rfl
  rw [hask, ask_eq hf]
  exact ⟨rfl, h.world, rfl, h.err, by rw [h.asked, h.prompt]⟩

theorem Follows.ask_refused (h : Follows k free limited) (hlong : k < free.saidAsking.length) :
    limited.ask false = ({ limited with out := .capped k free.saidAsking }, some Sink.full) := by
  have hwrite : (Sink.capped k free.out.written).write ('\n' :: promptIn free.world) =
      (.capped k free.saidAsking, some Sink.full) :=
    Sink.write_capped_of_lt (List.cons_ne_nil _ _) hlong
  simp only [Shell.ask, Bool.false_eq_true, if_false, deliver, writeOut, h.prompt, h.out, hwrite]

theorem Follows.writeOut (h : Follows k free limited) (hf : free.Free)
    (hroom : free.out.written.length ≤ k) (t : Text) :
    let after := (free.writeOut t).1
    Follows k after (limited.writeOut t).1 ∧
      (after.out.written.length ≤ k → (limited.writeOut t).2 = none) ∧
      (k < after.out.written.length → (limited.writeOut t).2 = some Sink.full) := by
  simp only [Shell.writeOut, hf.out.write_eq, h.out, Sink.extended]
  refine ⟨⟨h.world, Sink.write_capped_fst _ _ _, h.err, h.asked⟩, fun hle => ?_, fun hlong => ?_⟩
  · rw [Sink.write_capped_of_le hle]
  · have hsome : t ≠ [] := by
      rintro rfl
      rw [Utf8.encode_nil, List.append_nil] at hlong
      omega
    rw [Sink.write_capped_of_lt hsome hlong]

theorem Follows.deliver_eq (h : Follows k free limited) (t : Text) :
    limited.deliver t = limited.writeOut t := by
  have hout := Sink.write_capped_fst k free.out.written t
  simp only [deliver, Shell.writeOut, h.out]
  generalize (Sink.capped k free.out.written).write t = l at hout ⊢
  obtain ⟨out, fault⟩ := l
  cases fault with
  | none =>
    dsimp only at hout ⊢
    rw [flushOut, hout]
    rfl
  | some fault => rfl

/-- A line goes as it does without a limit, or else its output is refused and that is reported. -/
theorem Follows.executeLine (h : Follows k free limited) (hf : free.Free)
    (hroom : free.out.written.length ≤ k) (s : Settings) (t : Text) :
    let after := free.executeLine s t
    Follows k after.1 (limited.executeLine s t).1 ∧
      (after.1.out.written.length ≤ k → (limited.executeLine s t).2 = after.2) ∧
      (k < after.1.out.written.length → (limited.executeLine s t).2 = .done .stay) := by
  cases hw : Text.words t with
  | nil =>
    simp only [Shell.executeLine, hw]
    exact ⟨h, fun _ => trivial, fun _ => trivial⟩
  | cons name args =>
    have hlimited := dispatch_capped h.out hroom s.toSurroundings name args
    simp only [Shell.executeLine, hw, dispatch_eq hf, hlimited, h.world]
    obtain ⟨world, output, verdict, events⟩ :=
      Command.execute s.toSurroundings free.world name args
    dsimp only
    by_cases hfits : (free.out.written ++ Utf8.encode output).length ≤ k
    · simp only [if_pos hfits]
      have hnot := Nat.not_lt.2 hfits
      cases verdict with
      | done flow => exact ⟨⟨rfl, rfl, h.err, h.asked⟩, fun _ => rfl, fun hlong => absurd hlong hnot⟩
      | failed failure =>
        dsimp only
        rw [report_eq (by exact hf.err), report_eq (by exact h.err)]
        exact ⟨⟨rfl, rfl, h.err.extended _, h.asked⟩, fun _ => rfl, fun hlong => absurd hlong hnot⟩
      | crashed => exact ⟨⟨rfl, rfl, h.err, h.asked⟩, fun _ => rfl, fun hlong => absurd hlong hnot⟩
    · simp only [if_neg hfits]
      rw [report_eq (by exact h.err)]
      cases verdict with
      | failed failure =>
        dsimp only
        rw [report_eq (by exact hf.err)]
        exact ⟨⟨rfl, rfl, h.err.extended _, h.asked⟩, fun hle => absurd hle hfits, fun _ => rfl⟩
      | _ => exact ⟨⟨rfl, rfl, h.err.extended _, h.asked⟩, fun hle => absurd hle hfits, fun _ => rfl⟩

end Step

theorem turn_free {shell : Shell} (hf : shell.Free) (s : Settings) (r : Reading) :
    (turn s false shell r).Free := (turn_grows hf s false r).free hf

theorem loop_grows {shell : Shell} (hf : shell.Free) (s : Settings) (readings : List Reading) :
    ∃ out err asked, Grows shell (shell.loop s false readings).1 (asking false shell.world ++ out) err
      (promptIn shell.world :: asked) := by
  have hask := ask_grows hf false
  have hstop : ∃ out err asked, Grows shell (shell.ask false).1 (asking false shell.world ++ out) err
      (promptIn shell.world :: asked) := ⟨[], [], [], by simpa using hask⟩
  induction readings generalizing shell with
  | nil => rw [loop, ask_snd hf]; exact hstop
  | cons r rest ih =>
    have hturn := turn_grows hf s false r
    have hgo : ∃ out err asked, Grows shell ((turn s false shell r).loop s false rest).1
        (asking false shell.world ++ out) err (promptIn shell.world :: asked) := by
      have hfree := turn_free hf s r
      have hnext := ask_grows hfree false
      obtain ⟨out, err, asked, hloop⟩ :=
        ih hfree hnext ⟨[], [], [], by simpa using hnext⟩
      exact ⟨_, _, _, by simpa using hturn.trans hloop⟩
    have hlast : ∃ out err asked, Grows shell (turn s false shell r)
        (asking false shell.world ++ out) err (promptIn shell.world :: asked) := ⟨_, _, _, hturn⟩
    cases r with
    | line t =>
      by_cases hcrash : Crashes s shell.world (.line t)
      · rwa [loop_line_crashes hf s false t rest hcrash]
      · rw [loop_line hf s false t rest hcrash]
        split_ifs
        · exact hlast
        · exact hgo
    | interrupted => rwa [loop_interrupted hf]
    | _ => rw [loop, ask_snd hf]; exact hstop

theorem saidAsking_prefix_turn {shell : Shell} (hf : shell.Free) (s : Settings) (r : Reading) :
    shell.saidAsking <+: (turn s false shell r).out.written := by
  rw [(turn_grows hf s false r).out, Sink.extended, Utf8.encode_append, ← List.append_assoc]
  exact List.prefix_append _ _

theorem saidAsking_le_foldl {shell : Shell} (hf : shell.Free) (s : Settings) (rs : List Reading) :
    shell.saidAsking.length ≤ (rs.foldl (turn s false) shell).saidAsking.length := by
  induction rs generalizing shell with
  | nil => exact Nat.le_refl _
  | cons r rs ih =>
    have hturn := (saidAsking_prefix_turn hf s r).length_le
    have hnext : (turn s false shell r).out.written.length ≤
        (turn s false shell r).saidAsking.length := by simp [saidAsking]
    calc shell.saidAsking.length
      _ ≤ (turn s false shell r).out.written.length := hturn
      _ ≤ (turn s false shell r).saidAsking.length := hnext
      _ ≤ _ := ih (turn_free hf s r)

/-- What a limit of `k` bytes makes of a loop: what is delivered, how it ends, and that no more lines
are read than can be asked for. -/
structure Cut (k : Nat) (s : Settings) (start : Shell) (rs : List Reading)
    (free limited : Shell × Ending) : Prop where
  fits : free.1.out.written.length ≤ k → Follows k free.1 limited.1 ∧ limited.2 = free.2
  refused : k < free.1.out.written.length →
    limited.1.out.written = free.1.out.written.take k ∧ limited.2 = .failed (.stream Sink.full)
  reads : ∃ prompts m, free.1.asked = start.asked ++ prompts ∧ m ≤ prompts.length ∧
    limited.1.asked = start.asked ++ prompts.take m ∧
    limited.1.world = ((rs.take m).foldl (turn s false) start).world ∧
    ∀ i < prompts.length, i < m ↔ ((rs.take i).foldl (turn s false) start).saidAsking.length ≤ k

/-- A loop that a write was refused in, when another shell had come to `free`. -/
structure Stuck (k : Nat) (free : Shell) (said : Bytes) (limited : Shell × Ending) : Prop where
  world : limited.1.world = free.world
  written : limited.1.out.written = said.take k
  asked : limited.1.asked = free.asked
  ending : limited.2 = .failed (.stream Sink.full)

section Cut
variable {k : Nat} {s : Settings} {start : Shell} {r : Reading} {rs : List Reading}
  {free limited : Shell × Ending}

theorem Follows.stuck {limited : Shell} (h : Follows k start limited)
    (hlong : k < start.saidAsking.length) (readings : List Reading) :
    Stuck k start start.saidAsking (limited.loop s false readings) := by
  have hloop : limited.loop s false readings =
      ({ limited with out := .capped k start.saidAsking }, .failed (.stream Sink.full)) := by
    cases readings <;> rw [loop, h.ask_refused hlong]
  rw [hloop]
  exact ⟨h.world, rfl, h.asked, rfl⟩

theorem saidAsking_of_lt (hlong : k < start.out.written.length) :
    k < start.saidAsking.length ∧ start.saidAsking.take k = start.out.written.take k := by
  rw [saidAsking, List.take_append_of_le_length (Nat.le_of_lt hlong), List.length_append]
  exact ⟨by omega, rfl⟩

theorem Follows.stuck_of_lt {limited : Shell} (h : Follows k start limited)
    (hlong : k < start.out.written.length) (readings : List Reading) :
    Stuck k start start.out.written (limited.loop s false readings) := by
  obtain ⟨hmore, hsame⟩ := saidAsking_of_lt hlong
  obtain ⟨hworld, hwritten, hasked, hending⟩ := h.stuck (s := s) hmore readings
  exact ⟨hworld, hwritten.trans hsame, hasked, hending⟩

theorem cut_refused (hf : start.Free) (hlong : k < start.saidAsking.length)
    (h : Stuck k start start.saidAsking limited) (readings rs : List Reading) :
    Cut k s start rs (start.loop s false readings) limited := by
  obtain ⟨out, err, prompts, hloop⟩ := loop_grows hf s readings
  have hout : (start.loop s false readings).1.out.written = start.saidAsking ++ Utf8.encode out := by
    rw [hloop.out, Sink.extended, Utf8.encode_append, ← List.append_assoc]
    rfl
  refine ⟨fun hle => ?_, fun _ => ⟨?_, h.ending⟩, _, 0, hloop.asked, Nat.zero_le _, ?_, ?_, ?_⟩
  · rw [hout, List.length_append] at hle
    omega
  · rw [hout, List.take_append_of_le_length (Nat.le_of_lt hlong), h.written]
  · simpa using h.asked
  · simpa using h.world
  · intro i _
    have hmore := saidAsking_le_foldl hf s (rs.take i)
    constructor
    · intro hi
      exact absurd hi (Nat.not_lt_zero i)
    · intro hle
      omega

theorem cut_once (hfits : start.saidAsking.length ≤ k)
    (hle : free.1.out.written.length ≤ k → Follows k free.1 limited.1 ∧ limited.2 = free.2)
    (hgt : k < free.1.out.written.length →
      limited.1.out.written = free.1.out.written.take k ∧ limited.2 = .failed (.stream Sink.full))
    (hfree : free.1.asked = start.asked ++ [promptIn start.world])
    (hasked : limited.1.asked = free.1.asked)
    (hworld : limited.1.world = ((rs.take 1).foldl (turn s false) start).world) :
    Cut k s start rs free limited := by
  refine ⟨hle, hgt, _, 1, hfree, by simp, by rw [hasked, hfree]; rfl, hworld, fun i hi => ?_⟩
  obtain rfl : i = 0 := by simpa using hi
  simpa using hfits

theorem cut_last {limited : Shell} (hf : start.Free) (hfits : start.saidAsking.length ≤ k)
    (hroom : (turn s false start r).out.written.length ≤ k)
    (h : Follows k (turn s false start r) limited) (ending : Ending) :
    Cut k s start (r :: rs) (turn s false start r, ending) (limited, ending) :=
  cut_once hfits (fun _ => ⟨h, rfl⟩) (fun hlong => absurd hlong (Nat.not_lt.2 hroom))
    (turn_grows hf s false r).asked h.asked h.world

theorem cut_last_refused (hf : start.Free) (hfits : start.saidAsking.length ≤ k)
    (hlong : k < (turn s false start r).out.written.length)
    (h : Stuck k (turn s false start r) (turn s false start r).out.written limited)
    (ending : Ending) : Cut k s start (r :: rs) (turn s false start r, ending) limited :=
  cut_once hfits (fun hle => absurd hle (Nat.not_le.2 hlong)) (fun _ => ⟨h.written, h.ending⟩)
    (turn_grows hf s false r).asked h.asked h.world

theorem cut_next (hf : start.Free) (hfits : start.saidAsking.length ≤ k)
    (h : Cut k s (turn s false start r) rs free limited) : Cut k s start (r :: rs) free limited := by
  obtain ⟨hle, hgt, prompts, m, hfree, hm, hasked, hworld, hreads⟩ := h
  have hturn := (turn_grows hf s false r).asked
  refine ⟨hle, hgt, promptIn start.world :: prompts, m + 1, ?_, ?_, ?_, hworld, ?_⟩
  · rw [hfree, hturn, List.append_assoc, List.singleton_append]
  · simpa using hm
  · rw [hasked, hturn, List.append_assoc, List.singleton_append, List.take_succ_cons]
  · intro i hi
    cases i with
    | zero => simpa using hfits
    | succ i => simpa using hreads i (by simpa using hi)

theorem cut_next_refused (hf : start.Free) (hfits : start.saidAsking.length ≤ k)
    (hlong : k < (turn s false start r).out.written.length)
    (h : Stuck k (turn s false start r) (turn s false start r).out.written limited)
    (readings : List Reading) :
    Cut k s start (r :: rs) ((turn s false start r).loop s false readings) limited := by
  obtain ⟨hmore, hsame⟩ := saidAsking_of_lt hlong
  exact cut_next hf hfits (cut_refused (turn_free hf s r) hmore
    ⟨h.world, h.written.trans hsame.symm, h.asked, h.ending⟩ _ _)

end Cut

section Loop
variable {k : Nat} {free limited : Shell} (h : Follows k free limited) (hf : free.Free)
  (hfits : free.saidAsking.length ≤ k) (s : Settings)
include h hf hfits

theorem Follows.ended_cut (ending : Ending) :
    Cut k s free [] ((free.ask false).1, ending) ((limited.ask false).1, ending) := by
  have hnext := (h.ask hf hfits).2
  have hsaid : (free.ask false).1.out.written = free.saidAsking := by rw [ask_eq hf]; rfl
  refine cut_once hfits (fun _ => ⟨hnext, rfl⟩) (fun hlong => ?_) (ask_grows hf false).asked
    hnext.asked (hnext.world.trans (ask_world free false))
  rw [hsaid] at hlong
  omega

variable (rest : List Reading)
  (ih : ∀ {free limited : Shell}, Follows k free limited → free.Free →
    Cut k s free (taken rest) (free.loop s false rest) (limited.loop s false rest))
include ih

theorem Follows.interrupted_cut :
    Cut k s free (taken (.interrupted :: rest)) (free.loop s false (.interrupted :: rest))
      (limited.loop s false (.interrupted :: rest)) := by
  obtain ⟨hask, hasked⟩ := h.ask hf hfits
  have hroom : (free.ask false).1.out.written.length ≤ k := by rw [ask_eq hf]; exact hfits
  obtain ⟨hmark, hnone, hfull⟩ := hasked.writeOut ((ask_grows hf false).free hf) hroom
    (if s.quiet then [] else interruptMark)
  rw [loop_interrupted hf, loop.eq_def s false limited, hask]
  dsimp only
  generalize (limited.ask false).1.writeOut (if s.quiet then [] else interruptMark) = l at *
  obtain ⟨after, fault⟩ := l
  obtain hlong | hle := Nat.lt_or_ge k (turn s false free .interrupted).out.written.length
  · obtain rfl : fault = some Sink.full := hfull hlong
    exact cut_next_refused hf hfits hlong
      ⟨hmark.world, by rw [hmark.out]; rfl, hmark.asked, rfl⟩ rest
  · obtain rfl : fault = none := hnone hle
    exact cut_next hf hfits (ih hmark (turn_free hf s _))

theorem Follows.line_cut (t : Text) :
    Cut k s free (taken (.line t :: rest)) (free.loop s false (.line t :: rest))
      (limited.loop s false (.line t :: rest)) := by
  obtain ⟨hask, hasked⟩ := h.ask hf hfits
  have hfree := (ask_grows hf false).free hf
  have hroom : (free.ask false).1.out.written.length ≤ k := by rw [ask_eq hf]; exact hfits
  obtain ⟨hline, hsame, hstay⟩ := hasked.executeLine hfree hroom s t
  have hcrashes := executeLine_of_crashes hfree s t
  have hflows := executeLine_of_not_crashes hfree s t
  rw [ask_world] at hcrashes hflows
  have hnext := turn_free hf s (.line t)
  rw [taken, loop.eq_def s false limited, hask]
  dsimp only
  generalize (limited.ask false).1.executeLine s t = l at *
  obtain ⟨after, outcome⟩ := l
  obtain hlong | hle := Nat.lt_or_ge k (turn s false free (.line t)).out.written.length
  · obtain rfl : outcome = .done .stay := hstay hlong
    have hstuck := hline.stuck_of_lt (s := s) hlong rest
    by_cases hcrash : Crashes s free.world (.line t)
    · rw [loop_line_crashes hf s false t rest hcrash]
      exact cut_last_refused hf hfits hlong hstuck .crashed
    rw [loop_line hf s false t rest hcrash]
    split_ifs
    · exact cut_last_refused hf hfits hlong hstuck .done
    · exact cut_next hf hfits (ih hline hnext)
  · have houtcome := hsame hle
    by_cases hcrash : Crashes s free.world (.line t)
    · obtain rfl : outcome = .crashed := houtcome.trans (hcrashes hcrash)
      rw [loop_line_crashes hf s false t rest hcrash]
      exact cut_last hf hfits hle hline .crashed
    rw [hflows hcrash] at houtcome
    dsimp only at houtcome
    subst houtcome
    rw [loop_line hf s false t rest hcrash]
    split_ifs
    · exact cut_last hf hfits hle hline .done
    · exact cut_next hf hfits (ih hline hnext)

end Loop

/-- A limit cuts off what a loop says, and ends it where the first write is refused. -/
theorem Follows.loop_cut {k : Nat} {free limited : Shell} (h : Follows k free limited)
    (hf : free.Free) (s : Settings) (readings : List Reading) :
    Cut k s free (taken readings) (free.loop s false readings) (limited.loop s false readings) := by
  induction readings generalizing free limited with
  | nil =>
    obtain hlong | hfits := Nat.lt_or_ge k free.saidAsking.length
    · exact cut_refused hf hlong (h.stuck hlong _) _ _
    rw [loop, ask_snd hf, loop, (h.ask hf hfits).1]
    exact h.ended_cut hf hfits s .done
  | cons r rest ih =>
    obtain hlong | hfits := Nat.lt_or_ge k free.saidAsking.length
    · exact cut_refused hf hlong (h.stuck hlong _) _ _
    cases r with
    | line t => exact h.line_cut hf hfits s rest ih t
    | interrupted => exact h.interrupted_cut hf hfits s rest ih
    | endOfInput =>
      rw [loop, ask_snd hf, loop, (h.ask hf hfits).1]
      exact h.ended_cut hf hfits s .done
    | failure f =>
      rw [loop, ask_snd hf, loop, (h.ask hf hfits).1]
      exact h.ended_cut hf hfits s (.failed f)
    | crash =>
      rw [loop, ask_snd hf, loop, (h.ask hf hfits).1]
      exact h.ended_cut hf hfits s .crashed

section Say
variable {k : Nat} {s : Settings} {start free limited : Shell} {rs : List Reading}
  {ending ending' : Ending} (h : Cut k s start rs (free, ending) (limited, ending'))
include h

theorem Cut.say_refused (hlong : k < free.out.written.length) (t : Text) :
    Cut k s start rs ({ free with out := free.out.extended t }, ending) (limited, ending') := by
  obtain ⟨hwritten, hending⟩ := h.refused hlong
  refine ⟨fun hle => ?_, fun _ => ⟨?_, hending⟩, h.reads⟩
  · rw [Sink.extended, List.length_append] at hle
    omega
  · rw [Sink.extended, List.take_append_of_le_length (Nat.le_of_lt hlong), hwritten]

theorem Cut.say (hf : free.Free) (hle : free.out.written.length ≤ k) (t : Text) :
    Cut k s start rs ({ free with out := free.out.extended t }, ending)
      ((limited.writeOut t).1,
        match (limited.writeOut t).2 with
        | some fault => .failed (.stream fault)
        | none => ending) := by
  obtain ⟨hsaid, hnone, hfull⟩ := (h.fits hle).1.writeOut hf hle t
  simp only [writeOut, hf.out.write_eq] at hsaid hnone hfull
  refine ⟨fun hfits => ⟨hsaid, ?_⟩, fun hlong => ⟨?_, ?_⟩, h.reads⟩
  · simp only [writeOut, hnone hfits]
  · exact congrArg Sink.written hsaid.out
  · simp only [writeOut, hfull hlong]

end Say

theorem Cut.ending_eq {k : Nat} {s : Settings} {start : Shell} {rs : List Reading}
    {free limited : Shell × Ending} (h : Cut k s start rs free limited) :
    limited.1.out.written = free.1.out.written.take k ∧
      limited.2 = if free.1.out.written.length ≤ k then free.2 else .failed (.stream Sink.full) := by
  split_ifs with hle
  · obtain ⟨hsame, hending⟩ := h.fits hle
    exact ⟨by rw [hsame.out]; rfl, hending⟩
  · exact h.refused (Nat.lt_of_not_ge hle)

/-- What a run does when its loop has come to an end: it says farewell if no reading failed. -/
def closing (s : Settings) (l : Shell × Ending) : Shell × Ending :=
  match l with
  | (shell, .done) =>
    match shell.deliver (if s.quiet then [] else farewell) with
    | (shell, some fault) => (shell, .failed (.stream fault))
    | (shell, none) => (shell, .done)
  | l => l

theorem run_eq_closing (s : Settings) (source : LineSource) (shell : Shell) :
    ((run s source shell).shell, (run s source shell).ending) =
      match shell.writeOut (if s.quiet then [] else Command.helpText) with
      | (begun, some fault) => (begun, .failed (.stream fault))
      | (begun, none) => closing s (begun.loop s source.rendersPrompt source.readings) := by
  rw [run]
  generalize shell.writeOut (if s.quiet then [] else Command.helpText) = l
  obtain ⟨begun, fault⟩ := l
  cases fault with
  | some fault => rfl
  | none =>
    dsimp only
    generalize begun.loop s source.rendersPrompt source.readings = l
    obtain ⟨last, ending⟩ := l
    cases ending with
    | failed failure => rfl
    | crashed => rfl
    | done =>
      rw [closing]
      dsimp only
      generalize last.deliver (if s.quiet then [] else farewell) = l
      obtain ⟨said, _ | fault⟩ := l <;> rfl

theorem Cut.closing {free limited : Shell} {ending ending' : Ending}
    (h : Cut k s start rs (free, ending) (limited, ending')) (hf : free.Free) :
    Cut k s start rs
      ({ free with
          out := free.out.extended (if ending = .done ∧ s.quiet = false then farewell else []) },
        ending)
      (Shell.closing s (limited, ending')) := by
  obtain hlong | hle := Nat.lt_or_ge k free.out.written.length
  · obtain rfl : ending' = .failed (.stream Sink.full) := (h.refused hlong).2
    exact h.say_refused hlong _
  obtain ⟨hlast, rfl⟩ : Follows k free limited ∧ ending' = ending := h.fits hle
  cases ending' with
  | failed failure => simpa [Shell.closing] using h
  | crashed => simpa [Shell.closing] using h
  | done =>
    have hsay := h.say hf hle (if s.quiet then [] else farewell)
    have htext : (if Ending.done = .done ∧ s.quiet = false then farewell else []) =
        if s.quiet then [] else farewell := by cases s.quiet <;> rfl
    rw [Shell.closing, hlast.deliver_eq, htext]
    generalize limited.writeOut (if s.quiet then [] else farewell) = l at hsay ⊢
    obtain ⟨said, fault⟩ := l
    cases fault with
    | none => exact hsay
    | some fault => exact hsay

theorem run_cut (s : Settings) (readings : List Reading) (w : World) (k : Nat) :
    let source : LineSource := ⟨false, readings⟩
    let free := run s source (ofWorld w .unlimited .unlimited)
    let limited := run s source (ofWorld w (.withRoom (some k)) .unlimited)
    Cut k s (opened s w) (taken readings) (free.shell, free.ending)
      (limited.shell, limited.ending) := by
  intro source free limited
  have hfree : (ofWorld w .unlimited .unlimited).Free :=
    ⟨Sink.neverFails_unlimited, Sink.neverFails_unlimited⟩
  have hstart : Follows k (ofWorld w .unlimited .unlimited)
      (ofWorld w (.withRoom (some k)) .unlimited) :=
    ⟨rfl, Sink.withRoom_eq_capped k, Sink.neverFails_unlimited, rfl⟩
  have hbanner : ((ofWorld w .unlimited .unlimited).writeOut
      (if s.quiet then [] else Command.helpText)).1 = opened s w := by
    simp only [writeOut, ofWorld, Sink.neverFails_unlimited.write_eq, opened, banner]
  obtain ⟨hopened, hnone, hfull⟩ := hstart.writeOut hfree (Nat.zero_le k)
    (if s.quiet then [] else Command.helpText)
  rw [hbanner] at hopened hnone hfull
  have hf := opened_free s w
  obtain ⟨out, err, asked, hgrows⟩ := loop_grows hf s readings
  have hafter := hgrows.free hf
  generalize hloop : (opened s w).loop s false readings = done at hafter
  obtain ⟨after, ending⟩ := done
  rw [show free = _ from @run_of_loop s source w after ending hloop hafter,
    run_eq_closing s source (ofWorld w (.withRoom (some k)) .unlimited)]
  generalize (ofWorld w (.withRoom (some k)) .unlimited).writeOut
    (if s.quiet then [] else Command.helpText) = l at hopened hnone hfull ⊢
  obtain ⟨begun, fault⟩ := l
  obtain hlong | hle := Nat.lt_or_ge k (opened s w).out.written.length
  · obtain rfl : fault = some Sink.full := hfull hlong
    obtain ⟨hmore, hsame⟩ := saidAsking_of_lt hlong
    have hcut : Cut k s (opened s w) (taken readings) ((opened s w).loop s false readings)
        (begun, .failed (.stream Sink.full)) :=
      cut_refused hf hmore
        ⟨hopened.world, by rw [hopened.out, hsame]; rfl, hopened.asked, rfl⟩ readings _
    rw [hloop] at hcut
    refine hcut.say_refused ?_ _
    have hout := hgrows.out
    rw [hloop] at hout
    rw [hout, Sink.extended, List.length_append]
    omega
  · obtain rfl : fault = none := hnone hle
    have hcut := hopened.loop_cut hf s readings
    rw [hloop] at hcut
    exact hcut.closing hafter

theorem stop_ending_of_lines {readings : List Reading} (h : ∀ r ∈ readings, ∃ t, r = .line t) :
    (stop readings).ending = .done := by
  induction readings with
  | nil => rfl
  | cons r rest ih =>
    obtain ⟨t, rfl⟩ := h r List.mem_cons_self
    rw [stop]
    split_ifs
    · rfl
    · exact ih fun r hr => h r (List.mem_cons_of_mem _ hr)

theorem readings_ofBytes (input : Bytes) :
    ∀ r ∈ (LineSource.ofBytes input none).readings, ∃ t, r = .line t := by
  intro r hr
  simp only [LineSource.ofBytes, List.mem_append, List.mem_map] at hr
  obtain ⟨bs, -, rfl⟩ | hr := hr
  · exact ⟨_, rfl⟩
  · split_ifs at hr
    · simp at hr
    · exact ⟨_, List.mem_singleton.1 hr⟩

/-- Lines come to an end by themselves, so that only a command can keep a run from being done. -/
theorem run_done_iff {s : Settings} {source : LineSource} {w : World}
    (hlines : ∀ r ∈ source.readings, ∃ t, r = .line t) :
    (run s source (ofWorld w .unlimited .unlimited)).ending = .done ↔
      ∀ v ∈ visits s w (taken source.readings), ¬ BreaksOff v.1 v.2 := by
  rw [← uneventful_iff]
  constructor
  · intro hdone
    by_contra hquiet
    obtain ⟨before, t, after, htaken, hbefore, hcrash⟩ := exists_first_crash hquiet
    obtain ⟨-, -, -, -, hending, -⟩ := run_of_crash source htaken hbefore hcrash
    rw [hending] at hdone
    cases hdone
  · intro hquiet
    obtain ⟨-, -, -, -, hending, -⟩ := run_of_uneventful source hquiet
    rw [hending, stop_ending_of_lines hlines]

theorem saidAsking_opened (s : Settings) (w : World) (rs : List Reading) :
    (rs.foldl (turn s false) (opened s w)).saidAsking =
      Utf8.encode (banner s ++ shown s false w rs ++ asking false (rs.foldl (worldAfter s) w)) := by
  have hgrows := foldl_turn_grows (opened_free s w) s false rs
  simp only [saidAsking, hgrows.out, foldl_turn_world, opened_world, Utf8.encode_append]
  rfl

/-- Room for all that is said is no limit. -/
theorem run_with_room {s : Settings} {input : Bytes} {w : World} {ending : Ending}
    (h : (run s (.ofBytes input none) (ofWorld w .unlimited .unlimited)).ending = ending) :
    let source := LineSource.ofBytes input none
    let free := run s source (ofWorld w .unlimited .unlimited)
    let k := free.shell.out.written.length
    let limited := run s source (ofWorld w (.withRoom (some k)) .unlimited)
    limited.ending = ending ∧ limited.shell.out.written = free.shell.out.written := by
  intro source free k limited
  have hcut : Cut k s (opened s w) (taken source.readings) (free.shell, free.ending)
      (limited.shell, limited.ending) := run_cut s source.readings w k
  obtain ⟨hwritten, hending⟩ := hcut.ending_eq
  have hroom : free.shell.out.written.length ≤ k := Nat.le_refl _
  exact ⟨(hending.trans (if_pos hroom)).trans h, hwritten.trans (List.take_of_length_le hroom)⟩

/-- On output with room for `k` bytes a run delivers the first `k` of what it says without a limit;
it is done if that is all, reads a line only if there was room for all that is said until it has been
asked for, and leaves the world as the lines that it read have made it. A single command is cut off
likewise, and what fails without a limit fails alike. -/
theorem run_on_limited_output (s : Settings) (input : Bytes) (w : World) (k : Nat) :
    let source := LineSource.ofBytes input none
    let rs := taken source.readings
    let free := run s source (ofWorld w .unlimited .unlimited)
    let limited := run s source (ofWorld w (.withRoom (some k)) .unlimited)
    let n := free.shell.out.written.length
    let m := limited.shell.asked.length
    (limited.shell.out.written = free.shell.out.written.take k ∧
      limited.ending = (if n ≤ k then free.ending else .failed (.stream Sink.full)) ∧
      (limited.ending = .done ↔ n ≤ k ∧ ∀ v ∈ visits s w rs, ¬ BreaksOff v.1 v.2) ∧
      limited.shell.asked = free.shell.asked.take m ∧
      (∀ i < free.shell.asked.length, i < m ↔
        (Utf8.encode (banner s ++ shown s false w (rs.take i) ++
          asking false ((rs.take i).foldl (worldAfter s) w))).length ≤ k) ∧
      limited.shell.world = (rs.take m).foldl (worldAfter s) w) ∧
    ∀ (shell : Shell) (name : Text) (args : List Text),
      let free := { shell with out := .unlimited }.dispatch s.toSurroundings name args
      let limited := { shell with out := .withRoom (some k) }.dispatch s.toSurroundings name args
      let n := free.1.out.written.length
      limited.1.out.written = free.1.out.written.take k ∧
      limited.1.world = free.1.world ∧
      limited.2 = (if n ≤ k then free.2 else .failed (.stream Sink.full)) ∧
      (k < n → free.2 = .done .stay ∨
        free.2 = .crashed ∧ name = Command.ls.name.toList ∧ Command.OutOfYears shell.world args) := by
  intro source rs free limited n m
  constructor
  · have hcut : Cut k s (opened s w) rs (free.shell, free.ending) (limited.shell, limited.ending) :=
      run_cut s source.readings w k
    obtain ⟨hwritten, hending⟩ := hcut.ending_eq
    obtain ⟨prompts, count, hfree, hcount, hasked, hworld, hreads⟩ := hcut.reads
    have hasked' : limited.shell.asked = prompts.take count := hasked
    obtain rfl : prompts = free.shell.asked := hfree.symm
    have hm : m = count := by
      dsimp only [m]
      rw [hasked', List.length_take, Nat.min_eq_left hcount]
    rw [foldl_turn_world] at hworld
    simp only [saidAsking_opened] at hreads
    rw [hm]
    refine ⟨hwritten, hending, ?_, hasked', hreads, hworld⟩
    rw [show limited.ending = _ from hending, ← run_done_iff (readings_ofBytes input)]
    split_ifs with hle
    · exact (and_iff_right hle).symm
    · simp [n, hle]
  · intro shell name args
    let e := Command.execute s.toSurroundings shell.world name args
    have hfree : { shell with out := .unlimited }.dispatch s.toSurroundings name args =
        ({ shell with world := e.world, out := Sink.unlimited.extended e.output }.note
          (e.events.map .event), e.verdict) := by
      simp only [dispatch, Sink.neverFails_unlimited.write_eq]
      rfl
    have hlimited := @dispatch_capped { shell with out := .withRoom (some k) } k []
      (Sink.withRoom_eq_capped k) (Nat.zero_le k) s.toSurroundings name args
    dsimp only
    rw [hfree, hlimited]
    refine ⟨rfl, rfl, rfl, fun hlong => ?_⟩
    have hheard := Command.heard_execute s.toSurroundings shell.world name args
    refine (hheard fun hsilent => ?_).imp_right fun hcrash =>
      ⟨hcrash, (Command.execute_crashes_iff _ _ _ _).1 hcrash⟩
    simp [e, hsilent, Sink.extended, Sink.unlimited, note, Utf8.encode_nil] at hlong

/-- There is room for all that is said, but the run breaks off. -/
theorem run_on_limited_output_breaks_off :
    let s : Settings := ⟨⟨none, .universal⟩, ⟨false⟩, false⟩
    let w := Command.besideChanged (8210266876800 * 1000000000)
    let source := LineSource.ofBytes (Utf8.encode "ls\n".toList) none
    let free := run s source (ofWorld w .unlimited .unlimited)
    let k := free.shell.out.written.length
    let limited := run s source (ofWorld w (.withRoom (some k)) .unlimited)
    limited.ending = .crashed ∧ limited.shell.out.written = free.shell.out.written := by
  intro s w
  have hcrashed : (run s (.ofBytes (Utf8.encode "ls\n".toList) none)
      (ofWorld w .unlimited .unlimited)).ending = .crashed := by
    generalize hsource : LineSource.ofBytes (Utf8.encode "ls\n".toList) none = source
    have htaken : taken source.readings = [] ++ .line "ls".toList :: [] := by
      rw [← hsource]
      decide
    have hbefore : Uneventful s w [] := by simp [Uneventful]
    have hcrash : Crashes s w (.line "ls".toList) := (crashes_iff s w _).2 breaksOff_late_file
    obtain ⟨-, -, -, -, hcrashed, -⟩ := run_of_crash source htaken hbefore hcrash
    exact hcrashed
  exact run_with_room hcrashed

end Shell
end FileShell
