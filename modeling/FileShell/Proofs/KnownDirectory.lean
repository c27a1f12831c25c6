import FileShell.Completion
import FileShell.Proofs.RunMoments
import Mathlib.Data.List.Induction

namespace FileShell.Shell

/-- The directory that the line source was told of last, or else the one that it started with. -/
def known (start : Place) (shell : Shell) : Place := shell.told.getLast?.getD start

/-- The line source knows where the session is. -/
def Informed (start : Place) (shell : Shell) : Prop :=
  shell.known start = shell.world.session.place

/-- What the completer of a line source has become by all that the source was told. -/
def completer (fresh : Completer) (shell : Shell) : Completer :=
  shell.told.foldl (fun completer place => completer.moved place.path) fresh

theorem completer_eq {start : Place} {fresh : Completer} (h : fresh.base = start.path)
    (shell : Shell) :
    shell.completer fresh = ⟨fresh.commands, fresh.home, (shell.known start).path⟩ := by
  unfold completer known
  induction shell.told using List.reverseRecOn with
  | nil =>
    show fresh = ⟨fresh.commands, fresh.home, start.path⟩
    rw [← h]
  | append_singleton places place ih =>
    rw [List.foldl_append, ih, List.getLast?_append]
    rfl

theorem dispatch_place (s : Surroundings) (shell : Shell) (name : Text) (args : List Text)
    (h : (shell.dispatch s name args).2 ≠ .done .stay) :
    (shell.dispatch s name args).1.world.session.place = shell.world.session.place := by
  have hsession := Decidable.not_not.1 (mt moved_of_dispatch fun hmoved => h hmoved.2)
  exact congrArg Session.place hsession

namespace Informed

variable {start : Place} {shell other : Shell} (h : shell.Informed start)
include h

theorem of_same (htold : other.told = shell.told)
    (hplace : other.world.session.place = shell.world.session.place) : other.Informed start := by
  unfold Informed known at h ⊢
  rw [htold, hplace, h]

theorem ask (rendersPrompt : Bool) : (shell.ask rendersPrompt).1.Informed start :=
  h.of_same (ask_told shell rendersPrompt) (by simp)

/-- After a line the source knows where the session is, whatever has become of the line. -/
theorem executeLine (s : Settings) (t : Text) : (shell.executeLine s t).1.Informed start := by
  unfold Shell.executeLine
  split
  · exact h
  next name args hwords =>
  have htold := (dispatch_silent s.toSurroundings shell name args).told
  have hplace := dispatch_place s.toSurroundings shell name args
  split
  · next after flow hran =>
    show (after.told ++ [after.world.session.place]).getLast?.getD start = _
    rw [List.getLast?_append]
    rfl
  -- A command that is not done has told nothing, and the session has not moved.
  · next after failure hran =>
    rw [hran] at htold hplace
    apply h.of_same
    · rw [(report_silent s.highlighter after name failure).told, htold]
    · simpa using hplace nofun
  · next after hran =>
    rw [hran] at htold hplace
    exact h.of_same htold (hplace nofun)

theorem next? {s : Settings} {r : Reading} (hnext : shell.next? s r = some other) :
    other.Informed start := by
  cases r with
  | interrupted =>
    have hwritten := (writeOut_silent shell (if s.quiet then [] else interruptMark)).told
    dsimp only [Shell.next?] at hnext
    split at hnext
    · next hwrite =>
      cases hnext
      rw [hwrite] at hwritten
      apply h.of_same hwritten
      rw [← congrArg Prod.fst hwrite]
      rfl
    · cases hnext
  | line t =>
    have hran := h.executeLine s t
    dsimp only [Shell.next?] at hnext
    split at hnext
    · next hline =>
      cases hnext
      rwa [hline] at hran
    · cases hnext
  | _ => cases hnext

theorem foldl_executeLine (s : Settings) (lines : List Text) :
    (lines.foldl (fun shell line => (shell.executeLine s line).1) shell).Informed start := by
  induction lines generalizing shell with
  | nil => exact h
  | cons line lines ih => exact ih (h.executeLine s line)

theorem questions (s : Settings) (rendersPrompt : Bool) (readings : List Reading) :
    ∀ q ∈ shell.questions s rendersPrompt readings, q.Informed start := by
  induction readings generalizing shell with
  | nil =>
    have hask := h.ask rendersPrompt
    unfold Shell.questions
    split
    · simp
    · next asked hasked =>
      rw [hasked] at hask
      simpa using hask
  | cons r rest ih =>
    have hask := h.ask rendersPrompt
    cases hasked : shell.ask rendersPrompt with
    | mk asked refused =>
    rw [hasked] at hask
    cases refused with
    | some fault =>
      rw [Shell.questions, hasked]
      simp
    | none =>
      rw [Shell.questions, hasked]
      intro q hq
      obtain rfl | hq := List.mem_cons.1 hq
      · exact hask
      · cases hnext : asked.next? s r with
        | none =>
          rw [hnext] at hq
          cases hq
        | some next =>
          rw [hnext] at hq
          exact ih (Informed.next? hask hnext) q hq

theorem questionsOfRun (s : Settings) (source : LineSource) :
    ∀ q ∈ shell.questionsOfRun s source, q.Informed start := by
  have hopened : (shell.writeOut (if s.quiet then [] else Command.helpText)).1.Informed start :=
    h.of_same (writeOut_silent shell _).told rfl
  unfold Shell.questionsOfRun
  split
  · simp
  · next opened hwrite =>
    rw [hwrite] at hopened
    exact Informed.questions hopened s source.rendersPrompt source.readings

end Informed

/-- On any streams the line source knows where the session is, after every line, whatever has become of
it, and whenever a run asks for a line. So the completions offered at a prompt are those of the directory
in which the next line is run. -/
theorem source_knows_directory (s : Settings) (w : World) (out err : Sink) :
    let start := w.session.place
    let shell := ofWorld w out err
    (∀ lines : List Text,
      let after := lines.foldl (fun shell line => (shell.executeLine s line).1) shell
      after.known start = after.world.session.place) ∧
    ∀ source : LineSource,
      let asking := shell.questionsOfRun s source
      (run s source shell).shell.asked = asking.map prompt ∧
      ∀ q ∈ asking,
        q.known start = q.world.session.place ∧
        ∀ commands home fs line pos,
          (q.completer ⟨commands, home, start.path⟩).completeAt fs line pos =
            Completer.completeAt ⟨commands, home, q.world.session.directory⟩ fs line pos := by
  intro start shell
  have hfresh : shell.Informed start := rfl
  refine ⟨hfresh.foldl_executeLine s, ?_⟩
  intro source asking
  refine ⟨(run_moments s source shell).1, ?_⟩
  intro q hq
  have hknown : q.known start = q.world.session.place := hfresh.questionsOfRun s source q hq
  refine ⟨hknown, ?_⟩
  intro commands home fs line pos
  rw [completer_eq rfl, hknown]
  rfl

end FileShell.Shell
