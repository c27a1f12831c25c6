import FileShell.Proofs.RunTranscript

namespace FileShell.Shell

/-- What the loop goes on with after a reading, if it goes on. -/
def next? (s : Settings) (asked : Shell) : Reading → Option Shell
  | .interrupted =>
    match asked.writeOut (if s.quiet then [] else interruptMark) with
    | (next, none) => some next
    | (_, some _) => none
  | .line text =>
    match asked.executeLine s text with
    | (next, .done .stay) => some next
    | _ => none
  | _ => none

/-- The shell at each moment in which the loop asks for a line; it is this shell that runs the line. -/
def questions (s : Settings) (rendersPrompt : Bool) (shell : Shell) (readings : List Reading) :
    List Shell :=
  match shell.ask rendersPrompt with
  | (_, some _) => []
  | (asked, none) =>
    match readings with
    | [] => [asked]
    | r :: rest => asked :: ((asked.next? s r).map (questions s rendersPrompt · rest)).getD []

/-- The shell at each moment in which a run asks for a line. -/
def questionsOfRun (s : Settings) (source : LineSource) (shell : Shell) : List Shell :=
  match shell.writeOut (if s.quiet then [] else Command.helpText) with
  | (_, some _) => []
  | (opened, none) => opened.questions s source.rendersPrompt source.readings

/-- The readings that a run comes to, each with the world at that moment. -/
def reached (s : Settings) (source : LineSource) (shell : Shell) : List (World × Reading) :=
  ((shell.questionsOfRun s source).map world).zip source.readings

/-- Nothing has been told or asked in between. -/
structure Silent (before after : Shell) : Prop where
  told : after.told = before.told
  asked : after.asked = before.asked

theorem dispatch_silent (s : Surroundings) (shell : Shell) (name : Text) (args : List Text) :
    Silent shell (shell.dispatch s name args).1 := by
  unfold dispatch
  dsimp only
  split <;> exact ⟨rfl, rfl⟩

theorem report_silent (h : Highlighter) (shell : Shell) (name : Text) (failure : Failure) :
    Silent shell (shell.report h name failure).1 := by
  unfold report
  dsimp only
  split <;> exact ⟨rfl, rfl⟩

theorem writeOut_silent (shell : Shell) (t : Text) : Silent shell (shell.writeOut t).1 := ⟨rfl, rfl⟩

theorem deliver_silent (shell : Shell) (t : Text) : Silent shell (shell.deliver t).1 := by
  rw [deliver_frame]
  exact ⟨rfl, rfl⟩

theorem ask_told (shell : Shell) (rendersPrompt : Bool) :
    (shell.ask rendersPrompt).1.told = shell.told := by
  rw [ask_frame]

theorem ask_asked (shell : Shell) (rendersPrompt : Bool) :
    (shell.ask rendersPrompt).1.asked =
      shell.asked ++
        if (shell.ask rendersPrompt).2 = none then [(shell.ask rendersPrompt).1.prompt] else [] := by
  have hdeliver := (deliver_silent shell (if rendersPrompt then [] else '\n' :: shell.prompt)).asked
  unfold ask
  split
  · next after fault h =>
    rw [h] at hdeliver
    simpa using hdeliver
  · next after h =>
    rw [h] at hdeliver
    show after.asked ++ [after.prompt] = _
    rw [hdeliver]
    rfl

theorem executeLine_asked (s : Settings) (shell : Shell) (t : Text) :
    (shell.executeLine s t).1.asked = shell.asked := by
  unfold executeLine
  split
  · rfl
  next name args hwords =>
  have hran := (dispatch_silent s.toSurroundings shell name args).asked
  split
  · next after flow h => rwa [h] at hran
  · next after failure h =>
    rw [h] at hran
    rw [(report_silent s.highlighter after name failure).asked, hran]
  · next after h => rwa [h] at hran

/-- One reading: it makes its world and asks for nothing, and the loop goes on behind it or is over. -/
theorem loop_cons {shell asked : Shell} {rendersPrompt : Bool}
    (hask : shell.ask rendersPrompt = (asked, none)) (s : Settings) (r : Reading)
    (rest : List Reading) :
    ∃ after : Shell, after.world = worldAfter s asked.world r ∧ after.asked = asked.asked ∧
      (asked.next? s r = some after ∧
          shell.loop s rendersPrompt (r :: rest) = after.loop s rendersPrompt rest ∨
        asked.next? s r = none ∧ (shell.loop s rendersPrompt (r :: rest)).1 = after) := by
  rw [loop, hask]
  cases r with
  | interrupted =>
    have hworld := writeOut_world asked (if s.quiet then [] else interruptMark)
    have hasked := (writeOut_silent asked (if s.quiet then [] else interruptMark)).asked
    dsimp only [next?]
    cases hwrite : asked.writeOut (if s.quiet then [] else interruptMark) with
    | mk after refused =>
    rw [hwrite] at hworld hasked
    cases refused with
    | none => exact ⟨after, hworld, hasked, .inl ⟨rfl, rfl⟩⟩
    | some fault => exact ⟨after, hworld, hasked, .inr ⟨rfl, rfl⟩⟩
  | line t =>
    have hworld := (worldAfter_line s asked t).symm
    have hasked := executeLine_asked s asked t
    dsimp only [next?]
    cases hline : asked.executeLine s t with
    | mk after outcome =>
    rw [hline] at hworld hasked
    refine ⟨after, hworld, hasked, ?_⟩
    cases outcome with
    | done flow =>
      cases flow with
      | stay => exact .inl ⟨rfl, rfl⟩
      | leave => exact .inr ⟨rfl, rfl⟩
    | broken fault => exact .inr ⟨rfl, rfl⟩
    | crashed => exact .inr ⟨rfl, rfl⟩
  | _ => exact ⟨asked, rfl, rfl, .inr ⟨rfl, rfl⟩⟩

/-- On any streams, the loop asks with the prompt of each moment in which it asks. It meets at each
reading that it comes to the world that those before it make, and leaves the one that all of them
make. -/
theorem loop_moments (s : Settings) (rendersPrompt : Bool) (shell : Shell) (readings : List Reading) :
    let moments := shell.questions s rendersPrompt readings
    let read := readings.take moments.length
    let after := (shell.loop s rendersPrompt readings).1
    after.asked = shell.asked ++ moments.map prompt ∧
      after.world = read.foldl (worldAfter s) shell.world ∧
      (moments.map world).zip readings = visits s shell.world read := by
  induction readings generalizing shell with
  | nil =>
    have hworld := ask_world shell rendersPrompt
    have hasked := ask_asked shell rendersPrompt
    cases hask : shell.ask rendersPrompt with
    | mk asked refused =>
    rw [hask] at hworld hasked
    dsimp only at hworld
    rw [loop, questions, hask]
    cases refused with
    | some fault => exact ⟨by simpa using hasked, by simpa using hworld, by simp⟩
    | none => exact ⟨by simpa using hasked, by simpa using hworld, by simp⟩
  | cons r rest ih =>
    have hworld := ask_world shell rendersPrompt
    have hasked := ask_asked shell rendersPrompt
    cases hask : shell.ask rendersPrompt with
    | mk asked refused =>
    rw [hask] at hworld hasked
    dsimp only at hworld
    cases refused with
    | some fault =>
      rw [loop, questions, hask]
      exact ⟨by simpa using hasked, by simpa using hworld, by simp⟩
    | none =>
      rw [if_pos rfl] at hasked
      rw [questions, hask, ← hworld]
      obtain ⟨after, hafter, hsilent, ⟨hnext, hloop⟩ | ⟨hnext, hloop⟩⟩ := loop_cons hask s r rest
      · obtain ⟨hprompts, hleft, hvisits⟩ := ih after
        rw [hafter] at hleft hvisits
        rw [hsilent, hasked] at hprompts
        simp only [hnext, hloop]
        exact ⟨by simpa using hprompts, by simpa using hleft, by simpa using hvisits⟩
      · simp only [hnext, hloop]
        exact ⟨by simpa [hsilent] using hasked, by simpa using hafter, by simp⟩

theorem run_moments (s : Settings) (source : LineSource) (shell : Shell) :
    let moments := shell.questionsOfRun s source
    let read := source.readings.take moments.length
    let after := (run s source shell).shell
    after.asked = shell.asked ++ moments.map prompt ∧
      after.world = read.foldl (worldAfter s) shell.world ∧
      reached s source shell = visits s shell.world read := by
  have hworld := writeOut_world shell (if s.quiet then [] else Command.helpText)
  have hasked := (writeOut_silent shell (if s.quiet then [] else Command.helpText)).asked
  unfold reached run questionsOfRun
  cases hwrite : shell.writeOut (if s.quiet then [] else Command.helpText) with
  | mk opened refused =>
  rw [hwrite] at hworld hasked
  dsimp only at hworld hasked
  cases refused with
  | some fault => exact ⟨by simpa using hasked, by simpa using hworld, by simp⟩
  | none =>
  obtain ⟨hprompts, hleft, hvisits⟩ := loop_moments s source.rendersPrompt opened source.readings
  rw [hworld] at hleft hvisits
  rw [hasked] at hprompts
  dsimp only
  -- A farewell asks for nothing and leaves the world as it is.
  have hsaid {last said : Shell} {refused : Option Fault}
      (hsay : last.deliver (if s.quiet then [] else farewell) = (said, refused)) :
      said.asked = last.asked ∧ said.world = last.world := by
    have hframe := deliver_frame last (if s.quiet then [] else farewell)
    rw [hsay] at hframe
    dsimp only at hframe
    exact ⟨by rw [hframe], by rw [hframe]⟩
  split
  · next last hlast =>
    rw [hlast] at hprompts hleft
    split
    · next said fault hsay =>
      exact ⟨(hsaid hsay).1.trans hprompts, (hsaid hsay).2.trans hleft, hvisits⟩
    · next said hsay =>
      exact ⟨(hsaid hsay).1.trans hprompts, (hsaid hsay).2.trans hleft, hvisits⟩
  · next last hlast =>
    rw [hlast] at hprompts hleft
    exact ⟨hprompts, hleft, hvisits⟩
  · next last ending _ _ hlast =>
    rw [hlast] at hprompts hleft
    exact ⟨hprompts, hleft, hvisits⟩

end FileShell.Shell
