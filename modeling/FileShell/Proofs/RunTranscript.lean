import FileShell.Proofs.CommandFrame

namespace FileShell.Shell

/-- Whether the first word of a line is the one that leaves. -/
def asksToLeave (line : Text) : Bool := (Text.words line).head? == some Command.exit.name.toList

/-- The lines and interrupts up to the first line that leaves or the first reading of another
kind. -/
def taken : List Reading → List Reading
  | .line t :: rest => .line t :: if asksToLeave t then [] else taken rest
  | .interrupted :: rest => .interrupted :: taken rest
  | _ => []

/-- Why readings come to an end. -/
inductive Stop where
  | left
  | ended
  | failed (failure : ShellFailure)
  | crashed
deriving DecidableEq, Repr

def stop : List Reading → Stop
  | .line t :: rest => if asksToLeave t then .left else stop rest
  | .interrupted :: rest => stop rest
  | .failure f :: _ => .failed f
  | .crash :: _ => .crashed
  | [] | .endOfInput :: _ => .ended

def Stop.ending : Stop → Ending
  | left | ended => .done
  | failed f => .failed f
  | crashed => .crashed

/-- The world that a reading leaves: a line is executed, all else changes nothing. -/
def worldAfter (s : Settings) (w : World) : Reading → World
  | .line t => ((ofWorld w .unlimited .unlimited).executeLine s t).1.world
  | _ => w

/-- The command that a reading names, and what running it yields. -/
def effectOf? (s : Settings) (w : World) : Reading → Option (Text × Effect)
  | .line t =>
    match Text.words t with
    | [] => none
    | name :: args => some (name, Command.execute s.toSurroundings w name args)
  | _ => none

/-- What a reading shows by itself: the command's own output, or the mark of an interrupt. -/
def outputOf (s : Settings) (w : World) (r : Reading) : Text :=
  if r = .interrupted then if s.quiet then [] else interruptMark
  else ((effectOf? s w r).map (·.2.output)).getD []

/-- The report of a line that failed. -/
def reportOf (s : Settings) (w : World) (r : Reading) : Text :=
  match effectOf? s w r with
  | some (name, ⟨_, _, .failed failure, _⟩) => s.highlighter.error (failure.report name) ++ ['\n']
  | _ => []

/-- Whether the command of a reading ends the program. -/
def Crashes (s : Settings) (w : World) (r : Reading) : Prop :=
  ∃ name e, effectOf? s w r = some (name, e) ∧ e.verdict = .crashed

/-- The readings, each with the world that those before it left. -/
def visits (s : Settings) (w : World) (rs : List Reading) : List (World × Reading) :=
  (rs.scanl (worldAfter s) w).zip rs

/-- No command in the readings ends the program. -/
def Uneventful (s : Settings) (w : World) (rs : List Reading) : Prop :=
  ∀ v ∈ visits s w rs, ¬ Crashes s v.1 v.2

def promptIn (w : World) : Text := w.session.directory.display ++ Highlighter.promptEnd

/-- What is shown when a line is asked for. -/
def asking (rendersPrompt : Bool) (w : World) : Text :=
  if rendersPrompt then [] else '\n' :: promptIn w

/-- What is shown for a sequence of readings: each time the prompt and then what the reading
shows. -/
def shown (s : Settings) (rendersPrompt : Bool) (w : World) (rs : List Reading) : Text :=
  (visits s w rs).flatMap fun (v, r) => asking rendersPrompt v ++ outputOf s v r

def reported (s : Settings) (w : World) (rs : List Reading) : Text :=
  (visits s w rs).flatMap fun (v, r) => reportOf s v r

def banner (s : Settings) : Text := if s.quiet then [] else Command.helpText

/-- One turn of the loop: a line is asked for and, if one comes, executed. -/
def turn (s : Settings) (rendersPrompt : Bool) (shell : Shell) (r : Reading) : Shell :=
  let asked := (shell.ask rendersPrompt).1
  match r with
  | .line t => (asked.executeLine s t).1
  | .interrupted => (asked.writeOut (if s.quiet then [] else interruptMark)).1
  | _ => asked

/-- A shell both of whose streams never fail. -/
structure Free (shell : Shell) : Prop where
  out : shell.out.NeverFails
  err : shell.err.NeverFails

/-- What a shell has written and asked for between two moments. -/
structure Grows (before after : Shell) (out err : Text) (asked : List Text) : Prop where
  out : after.out = before.out.extended out
  err : after.err = before.err.extended err
  asked : after.asked = before.asked ++ asked

theorem Grows.free {before after : Shell} {out err : Text} {asked : List Text}
    (h : Grows before after out err asked) (hf : before.Free) : after.Free :=
  ⟨h.out ▸ hf.out.extended out, h.err ▸ hf.err.extended err⟩

theorem Grows.trans {first second third : Shell} {out out' err err' : Text}
    {asked asked' : List Text} (h : Grows first second out err asked)
    (h' : Grows second third out' err' asked') :
    Grows first third (out ++ out') (err ++ err') (asked ++ asked') :=
  ⟨by rw [h'.out, h.out, Sink.extended_extended], by rw [h'.err, h.err, Sink.extended_extended],
    by rw [h'.asked, h.asked, List.append_assoc]⟩

theorem Grows.refl (shell : Shell) : Grows shell shell [] [] [] := ⟨by simp, by simp, by simp⟩

theorem ask_eq {shell : Shell} (hf : shell.Free) (rendersPrompt : Bool) :
    shell.ask rendersPrompt =
      ({ shell with
          out := shell.out.extended (asking rendersPrompt shell.world)
          asked := shell.asked ++ [promptIn shell.world] }, none) := by
  have hw (t : Text) : shell.out.write t = (shell.out.extended t, none) := hf.out.write_eq t
  have hfl (t : Text) : (shell.out.extended t).flush = (shell.out.extended t, none) :=
    (hf.out.extended t).flush_eq
  cases rendersPrompt <;>
    simp [ask, deliver, writeOut, flushOut, hw, hfl, asking, prompt, promptIn, -Sink.extended_nil]

theorem ask_grows {shell : Shell} (hf : shell.Free) (rendersPrompt : Bool) :
    Grows shell (shell.ask rendersPrompt).1 (asking rendersPrompt shell.world) []
      [promptIn shell.world] := by
  rw [ask_eq hf]
  exact ⟨rfl, by simp, rfl⟩

theorem dispatch_eq {shell : Shell} (hf : shell.Free) (s : Surroundings) (name : Text)
    (args : List Text) :
    let e := Command.execute s shell.world name args
    shell.dispatch s name args =
      ({ shell with world := e.world, out := shell.out.extended e.output }.note
        (e.events.map .event), e.verdict) := by
  simp only [dispatch, hf.out.write_eq]

theorem report_eq {shell : Shell} (hf : shell.err.NeverFails) (h : Highlighter) (name : Text)
    (failure : Failure) :
    let text := h.error (failure.report name) ++ ['\n']
    shell.report h name failure =
      ({ shell with err := shell.err.extended text }.note
        [.event (.commandFailed name failure), .report text], .done .stay) := by
  simp only [report, hf.write_eq]

theorem effectOf?_of_words_nil {t : Text} (h : Text.words t = []) (s : Settings) (w : World) :
    effectOf? s w (.line t) = none := by
  simp only [effectOf?, h]

theorem effectOf?_of_words_cons {t name : Text} {args : List Text}
    (h : Text.words t = name :: args) (s : Settings) (w : World) :
    effectOf? s w (.line t) = some (name, Command.execute s.toSurroundings w name args) := by
  simp only [effectOf?, h]

@[simp] theorem report_world (h : Highlighter) (shell : Shell) (name : Text) (failure : Failure) :
    (shell.report h name failure).1.world = shell.world := by
  unfold report
  dsimp only
  split <;> rfl

theorem executeLine_world (s : Settings) (shell : Shell) (t : Text) :
    (shell.executeLine s t).1.world =
      ((effectOf? s shell.world (.line t)).map (·.2.world)).getD shell.world := by
  cases hw : Text.words t with
  | nil => simp only [executeLine, hw, effectOf?_of_words_nil hw, Option.map_none, Option.getD_none]
  | cons name args =>
    have hd := dispatch_world s.toSurroundings shell name args
    simp only [executeLine, hw, effectOf?_of_words_cons hw, Option.map_some, Option.getD_some]
    rw [← hd]
    split
    · next after flow he => rw [he]
    · next after failure he => rw [report_world, he]
    · next after he => rw [he]

theorem worldAfter_of_words_nil {t : Text} (h : Text.words t = []) (s : Settings) (w : World) :
    worldAfter s w (.line t) = w := by
  rw [worldAfter, executeLine_world, effectOf?_of_words_nil h]
  rfl

theorem worldAfter_of_words_cons {t name : Text} {args : List Text}
    (h : Text.words t = name :: args) (s : Settings) (w : World) :
    worldAfter s w (.line t) = (Command.execute s.toSurroundings w name args).world := by
  rw [worldAfter, executeLine_world, effectOf?_of_words_cons h]
  rfl

theorem worldAfter_line (s : Settings) (shell : Shell) (t : Text) :
    worldAfter s shell.world (.line t) = (shell.executeLine s t).1.world := by
  rw [executeLine_world, worldAfter, executeLine_world]
  rfl

theorem executeLine_grows {shell : Shell} (hf : shell.Free) (s : Settings) (t : Text) :
    Grows shell (shell.executeLine s t).1 (outputOf s shell.world (.line t))
      (reportOf s shell.world (.line t)) [] := by
  cases hw : Text.words t with
  | nil =>
    simp only [executeLine, hw, outputOf, reportOf, effectOf?_of_words_nil hw]
    exact .refl shell
  | cons name args =>
    simp only [executeLine, hw, outputOf, reportOf, effectOf?_of_words_cons hw, dispatch_eq hf]
    obtain ⟨world, output, verdict, events⟩ :=
      Command.execute s.toSurroundings shell.world name args
    cases verdict with
    | done flow => exact ⟨rfl, by simp [note], by simp [note]⟩
    | failed failure =>
      dsimp only
      rw [report_eq (by exact hf.err)]
      exact ⟨rfl, rfl, by simp [note]⟩
    | crashed => exact ⟨rfl, by simp [note], by simp [note]⟩

theorem executeLine_of_not_crashes {shell : Shell} (hf : shell.Free) (s : Settings) (t : Text)
    (h : ¬ Crashes s shell.world (.line t)) :
    (shell.executeLine s t).2 = .done (if asksToLeave t then .leave else .stay) := by
  cases hw : Text.words t with
  | nil => simp [executeLine, hw, asksToLeave]
  | cons name args =>
    have hleave := Command.execute_leaves_iff s.toSurroundings shell.world name args
    have hcrash : (Command.execute s.toSurroundings shell.world name args).verdict ≠ .crashed :=
      fun hv => h ⟨name, _, effectOf?_of_words_cons hw s _, hv⟩
    simp only [executeLine, hw, dispatch_eq hf, asksToLeave, List.head?_cons]
    generalize Command.execute s.toSurroundings shell.world name args = e at hleave hcrash ⊢
    obtain ⟨world, output, verdict, events⟩ := e
    cases verdict with
    | done flow => cases flow <;> simp_all
    | failed failure =>
      dsimp only
      rw [report_eq (by exact hf.err)]
      simp_all
    | crashed => exact absurd rfl hcrash

theorem executeLine_of_crashes {shell : Shell} (hf : shell.Free) (s : Settings) (t : Text)
    (h : Crashes s shell.world (.line t)) : (shell.executeLine s t).2 = .crashed := by
  obtain ⟨name, e, he, hv⟩ := h
  cases hw : Text.words t with
  | nil => simp [effectOf?_of_words_nil hw] at he
  | cons name' args =>
    rw [effectOf?_of_words_cons hw, Option.some.injEq, Prod.mk.injEq] at he
    obtain ⟨rfl, rfl⟩ := he
    simp only [executeLine, hw, dispatch_eq hf, hv]

theorem ask_snd {shell : Shell} (hf : shell.Free) (rendersPrompt : Bool) :
    shell.ask rendersPrompt = ((shell.ask rendersPrompt).1, none) := by
  rw [ask_eq hf]

@[simp] theorem writeOut_world (shell : Shell) (t : Text) :
    (shell.writeOut t).1.world = shell.world := rfl

theorem deliver_frame (shell : Shell) (t : Text) :
    (shell.deliver t).1 = { shell with out := (shell.deliver t).1.out } := by
  unfold deliver
  split
  · next after fault h =>
    obtain rfl : (shell.writeOut t).1 = after := congrArg Prod.fst h
    rfl
  · next after h =>
    obtain rfl : (shell.writeOut t).1 = after := congrArg Prod.fst h
    rfl

theorem ask_frame (shell : Shell) (rendersPrompt : Bool) :
    (shell.ask rendersPrompt).1 =
      { shell with
        out := (shell.ask rendersPrompt).1.out
        asked := (shell.ask rendersPrompt).1.asked } := by
  have hframe := deliver_frame shell (if rendersPrompt then [] else '\n' :: shell.prompt)
  unfold ask
  split
  · next after fault h =>
    rw [h] at hframe
    dsimp only at hframe ⊢
    rw [hframe]
  · next after h =>
    rw [h] at hframe
    dsimp only at hframe ⊢
    rw [hframe]

@[simp] theorem ask_world (shell : Shell) (rendersPrompt : Bool) :
    (shell.ask rendersPrompt).1.world = shell.world := by
  rw [ask_frame]

@[simp] theorem turn_world (shell : Shell) (s : Settings) (rendersPrompt : Bool) (r : Reading) :
    (turn s rendersPrompt shell r).world = worldAfter s shell.world r := by
  cases r with
  | line t => rw [← ask_world shell rendersPrompt, worldAfter_line]; rfl
  | _ => exact ask_world shell rendersPrompt

theorem turn_grows {shell : Shell} (hf : shell.Free) (s : Settings) (rendersPrompt : Bool)
    (r : Reading) :
    Grows shell (turn s rendersPrompt shell r)
      (asking rendersPrompt shell.world ++ outputOf s shell.world r) (reportOf s shell.world r)
      [promptIn shell.world] := by
  have hask := ask_grows hf rendersPrompt
  have hfree := hask.free hf
  cases r with
  | line t =>
    have hline := executeLine_grows hfree s t
    simpa [turn] using hask.trans hline
  | interrupted =>
    have hwrite : Grows (shell.ask rendersPrompt).1 (turn s rendersPrompt shell .interrupted)
        (outputOf s shell.world .interrupted) [] [] := by
      simp only [turn, writeOut, hfree.out.write_eq]
      exact ⟨rfl, by simp, by simp⟩
    simpa [reportOf, effectOf?] using hask.trans hwrite
  | _ => simpa [turn, outputOf, effectOf?, reportOf] using hask

@[simp] theorem visits_nil (s : Settings) (w : World) : visits s w [] = [] := by simp [visits]

@[simp] theorem visits_cons (s : Settings) (w : World) (r : Reading) (rs : List Reading) :
    visits s w (r :: rs) = (w, r) :: visits s (worldAfter s w r) rs := by
  simp [visits]

theorem uneventful_cons {s : Settings} {w : World} {r : Reading} {rs : List Reading} :
    Uneventful s w (r :: rs) ↔ ¬ Crashes s w r ∧ Uneventful s (worldAfter s w r) rs := by
  simp [Uneventful]

@[simp] theorem foldl_turn_world (shell : Shell) (s : Settings) (rendersPrompt : Bool)
    (rs : List Reading) :
    (rs.foldl (turn s rendersPrompt) shell).world = rs.foldl (worldAfter s) shell.world := by
  induction rs generalizing shell with
  | nil => rfl
  | cons r rs ih => simp [ih]

theorem foldl_turn_grows {shell : Shell} (hf : shell.Free) (s : Settings) (rendersPrompt : Bool)
    (rs : List Reading) :
    Grows shell (rs.foldl (turn s rendersPrompt) shell) (shown s rendersPrompt shell.world rs)
      (reported s shell.world rs) ((visits s shell.world rs).map fun v => promptIn v.1) := by
  induction rs generalizing shell with
  | nil => exact .refl shell
  | cons r rs ih =>
    have hturn := turn_grows hf s rendersPrompt r
    have hrest := ih (hturn.free hf)
    simpa [shown, reported] using hturn.trans hrest

section Loop
variable {shell : Shell} (hf : shell.Free) (s : Settings) (rendersPrompt : Bool)
include hf

theorem loop_interrupted (rest : List Reading) :
    shell.loop s rendersPrompt (.interrupted :: rest) =
      (turn s rendersPrompt shell .interrupted).loop s rendersPrompt rest := by
  have hfree := (ask_grows hf rendersPrompt).free hf
  rw [loop, ask_snd hf]
  simp only [turn, writeOut, hfree.out.write_eq]

theorem loop_line_crashes (t : Text) (rest : List Reading) (h : Crashes s shell.world (.line t)) :
    shell.loop s rendersPrompt (.line t :: rest) =
      (turn s rendersPrompt shell (.line t), .crashed) := by
  have hfree := (ask_grows hf rendersPrompt).free hf
  rw [← ask_world shell rendersPrompt] at h
  have hline : (shell.ask rendersPrompt).1.executeLine s t =
      (turn s rendersPrompt shell (.line t), .crashed) :=
    Prod.ext rfl (executeLine_of_crashes hfree s t h)
  rw [loop, ask_snd hf]
  simp only [hline]

theorem loop_line (t : Text) (rest : List Reading) (h : ¬ Crashes s shell.world (.line t)) :
    shell.loop s rendersPrompt (.line t :: rest) =
      if asksToLeave t then (turn s rendersPrompt shell (.line t), .done)
      else (turn s rendersPrompt shell (.line t)).loop s rendersPrompt rest := by
  have hfree := (ask_grows hf rendersPrompt).free hf
  rw [← ask_world shell rendersPrompt] at h
  have hline : (shell.ask rendersPrompt).1.executeLine s t =
      (turn s rendersPrompt shell (.line t), .done (if asksToLeave t then .leave else .stay)) :=
    Prod.ext rfl (executeLine_of_not_crashes hfree s t h)
  rw [loop, ask_snd hf]
  simp only [hline]
  cases asksToLeave t <;> rfl

/-- Without a crash the loop is a fold of turns over the readings taken, and one more question if
none of them leaves. -/
theorem loop_eq_foldl (readings : List Reading)
    (h : Uneventful s shell.world (taken readings)) :
    shell.loop s rendersPrompt readings =
      let after := (taken readings).foldl (turn s rendersPrompt) shell
      if stop readings = .left then (after, .done)
      else ((after.ask rendersPrompt).1, (stop readings).ending) := by
  induction readings generalizing shell with
  | nil => rw [loop, ask_snd hf]; rfl
  | cons r rest ih =>
    have hfree := (turn_grows hf s rendersPrompt r).free hf
    cases r with
    | line t =>
      rw [taken, uneventful_cons] at h
      rw [loop_line hf s rendersPrompt t rest h.1]
      cases hleave : asksToLeave t with
      | true => simp [taken, stop, hleave]
      | false =>
        rw [hleave] at h
        rw [if_neg (by simp), ih hfree (by simpa using h.2)]
        simp [taken, stop, hleave]
    | interrupted =>
      rw [taken, uneventful_cons] at h
      rw [loop_interrupted hf, ih hfree (by simpa using h.2)]
      rfl
    | _ => rw [loop, ask_snd hf]; rfl

/-- The first command that ends the program ends the loop. -/
theorem loop_of_crash (readings before after : List Reading) (t : Text)
    (htaken : taken readings = before ++ Reading.line t :: after)
    (hbefore : Uneventful s shell.world before)
    (hcrash : Crashes s (before.foldl (worldAfter s) shell.world) (.line t)) :
    shell.loop s rendersPrompt readings =
      ((before ++ [Reading.line t]).foldl (turn s rendersPrompt) shell, .crashed) := by
  induction readings generalizing shell before with
  | nil => simp [taken] at htaken
  | cons r rest ih =>
    have hfree := (turn_grows hf s rendersPrompt r).free hf
    cases before with
    | nil =>
      cases r with
      | line u =>
        obtain rfl : u = t := by simpa [taken] using (List.cons.inj htaken).1
        exact loop_line_crashes hf s rendersPrompt u rest hcrash
      | _ => simp [taken] at htaken
    | cons b before =>
      rw [uneventful_cons] at hbefore
      cases r with
      | line u =>
        obtain ⟨rfl, htail⟩ := List.cons.inj htaken
        rw [loop_line hf s rendersPrompt u rest hbefore.1]
        cases hleave : asksToLeave u with
        | true => simp [hleave] at htail
        | false =>
          rw [hleave] at htail
          rw [if_neg (by simp)]
          exact ih hfree before htail (by simpa using hbefore.2)
            (by simpa using hcrash)
      | interrupted =>
        obtain ⟨rfl, htail⟩ := List.cons.inj htaken
        rw [loop_interrupted hf]
        exact ih hfree before htail (by simpa using hbefore.2)
          (by simpa using hcrash)
      | _ => simp [taken] at htaken

end Loop

/-- A shell that has shown the table of commands. -/
def opened (s : Settings) (w : World) : Shell :=
  { ofWorld w .unlimited .unlimited with out := Sink.unlimited.extended (banner s) }

@[simp] theorem opened_world (s : Settings) (w : World) : (opened s w).world = w := rfl

theorem opened_free (s : Settings) (w : World) : (opened s w).Free :=
  ⟨Sink.neverFails_unlimited.extended _, Sink.neverFails_unlimited⟩

theorem run_of_loop {s : Settings} {source : LineSource} {w : World} {after : Shell}
    {ending : Ending}
    (h : (opened s w).loop s source.rendersPrompt source.readings = (after, ending))
    (hf : after.Free) :
    run s source (ofWorld w .unlimited .unlimited) =
      ⟨{ after with
          out := after.out.extended (if ending = .done ∧ s.quiet = false then farewell else []) },
        ending, if ending = .crashed then 0 else 1⟩ := by
  have hbanner : (ofWorld w .unlimited .unlimited).writeOut
      (if s.quiet then [] else Command.helpText) = (opened s w, none) := by
    simp only [writeOut, ofWorld, Sink.neverFails_unlimited.write_eq, opened, banner]
  have hdeliver (t : Text) :
      after.deliver t = ({ after with out := after.out.extended t }, none) := by
    simp only [deliver, writeOut, flushOut, hf.out.write_eq, (hf.out.extended t).flush_eq]
  rw [run, hbanner]
  dsimp only
  rw [h]
  cases ending with
  | done =>
    simp only [hdeliver]
    cases s.quiet <;> simp
  | failed failure => simp
  | crashed => simp

def goodbye (s : Settings) (ending : Ending) : Text :=
  if ending = .done ∧ s.quiet = false then farewell else []

theorem run_of_grows {s : Settings} {source : LineSource} {w : World} {after : Shell}
    {ending : Ending} {out err : Text} {asked : List Text}
    (h : (opened s w).loop s source.rendersPrompt source.readings = (after, ending))
    (hg : Grows (opened s w) after out err asked) :
    let o := run s source (ofWorld w .unlimited .unlimited)
    o.shell.world = after.world ∧
    o.shell.out.written = Utf8.encode (banner s ++ out ++ goodbye s ending) ∧
    o.shell.err.written = Utf8.encode err ∧ o.shell.asked = asked ∧
    o.ending = ending ∧ o.closings = if ending = .crashed then 0 else 1 := by
  have hrun := run_of_loop h (hg.free (opened_free s w))
  have hout : after.out.extended (goodbye s ending) =
      Sink.unlimited.extended (banner s ++ out ++ goodbye s ending) := by
    rw [hg.out, opened, Sink.extended_extended, Sink.extended_extended, List.append_assoc]
  rw [goodbye] at hout
  dsimp only
  rw [hrun, hout]
  refine ⟨rfl, rfl, ?_, hg.asked, rfl, rfl⟩
  rw [hg.err]
  rfl

end FileShell.Shell
