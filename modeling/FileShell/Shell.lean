import FileShell.Command.Execute
import FileShell.Highlight
import FileShell.LineSource
import FileShell.Sink
import FileShell.Text.Words

namespace FileShell

/-- What goes to the error stream and to the log, in the order in which it happens. -/
inductive Notice where
  | event (event : Event)
  | report (text : Text)
deriving DecidableEq, Repr

structure Shell where
  world : World
  out : Sink
  err : Sink
  notices : List Notice
  /-- The prompts that lines were asked for with. -/
  asked : List Text
  /-- The directories that the line source was told of. -/
  told : List Place

structure Settings extends Surroundings where
  highlighter : Highlighter
  quiet : Bool

inductive LineOutcome where
  | done (flow : Flow)
  | broken (fault : Fault)
  | crashed
deriving DecidableEq, Repr

inductive Ending where
  | done
  | failed (failure : ShellFailure)
  | crashed
deriving DecidableEq, Repr

namespace Shell

def ofWorld (w : World) (out err : Sink) : Shell := ⟨w, out, err, [], [], []⟩

def note (shell : Shell) (notices : List Notice) : Shell :=
  { shell with notices := shell.notices ++ notices }

/-- Runs a command and writes its output; output that is refused counts as its failure. -/
def dispatch (s : Surroundings) (shell : Shell) (name : Text) (args : List Text) :
    Shell × Verdict :=
  let effect := Command.execute s shell.world name args
  let (out, fault) := shell.out.write effect.output
  let after := { shell with world := effect.world, out := out }.note (effect.events.map .event)
  match fault with
  | some f => (after, .failed (.stream f))
  | none => (after, effect.verdict)

def report (h : Highlighter) (shell : Shell) (name : Text) (failure : Failure) :
    Shell × LineOutcome :=
  let text := h.error (failure.report name) ++ ['\n']
  let (err, fault) := shell.err.write text
  let after := { shell with err := err }.note [.event (.commandFailed name failure), .report text]
  match fault with
  | some f => (after, .broken f)
  | none => (after, .done .stay)

def executeLine (s : Settings) (shell : Shell) (line : Text) : Shell × LineOutcome :=
  match Text.words line with
  | [] => (shell, .done .stay)
  | name :: args =>
    match shell.dispatch s.toSurroundings name args with
    | (after, .done flow) =>
      ({ after with told := after.told ++ [after.world.session.place] }, .done flow)
    | (after, .failed failure) => after.report s.highlighter name failure
    | (after, .crashed) => (after, .crashed)

def prompt (shell : Shell) : Text :=
  shell.world.session.directory.display ++ Highlighter.promptEnd

def writeOut (shell : Shell) (t : Text) : Shell × Option Fault :=
  let (out, fault) := shell.out.write t
  ({ shell with out := out }, fault)

def flushOut (shell : Shell) : Shell × Option Fault :=
  let (out, fault) := shell.out.flush
  ({ shell with out := out }, fault)

/-- Writes several texts and flushes, unless one of them is refused. -/
def deliver (shell : Shell) (t : Text) : Shell × Option Fault :=
  match shell.writeOut t with
  | (after, some fault) => (after, some fault)
  | (after, none) => after.flushOut

/-- Shows the prompt, unless the source does, and notes that it was asked with. -/
def ask (shell : Shell) (rendersPrompt : Bool) : Shell × Option Fault :=
  match shell.deliver (if rendersPrompt then [] else '\n' :: shell.prompt) with
  | (after, some fault) => (after, some fault)
  | (after, none) => ({ after with asked := after.asked ++ [after.prompt] }, none)

def interruptMark : Text := "^C\n".toList

/-- Asks for a line, runs the command in it, reports a failure and goes on, until a line leaves, the
lines end, or a reading or a stream fails. -/
def loop (s : Settings) (rendersPrompt : Bool) (shell : Shell) (readings : List Reading) :
    Shell × Ending :=
  match shell.ask rendersPrompt with
  | (shell, some fault) => (shell, .failed (.stream fault))
  | (shell, none) =>
    match readings with
    | [] => (shell, .done)
    | .endOfInput :: _ => (shell, .done)
    | .failure failure :: _ => (shell, .failed failure)
    | .crash :: _ => (shell, .crashed)
    | .interrupted :: rest =>
      match shell.writeOut (if s.quiet then [] else interruptMark) with
      | (shell, some fault) => (shell, .failed (.stream fault))
      | (shell, none) => shell.loop s rendersPrompt rest
    | .line text :: rest =>
      match shell.executeLine s text with
      | (shell, .done .leave) => (shell, .done)
      | (shell, .done .stay) => shell.loop s rendersPrompt rest
      | (shell, .broken fault) => (shell, .failed (.stream fault))
      | (shell, .crashed) => (shell, .crashed)

def farewell : Text := "Goodbye!\n".toList

/-- What a whole run leaves: the shell, how it ended and how often its source was closed. -/
structure Outcome where
  shell : Shell
  ending : Ending
  closings : Nat

/-- The whole run: the table of commands, the loop, and a farewell if no reading failed. -/
def run (s : Settings) (source : LineSource) (shell : Shell) : Outcome :=
  match shell.writeOut (if s.quiet then [] else Command.helpText) with
  | (shell, some fault) => ⟨shell, .failed (.stream fault), 0⟩
  | (shell, none) =>
    match shell.loop s source.rendersPrompt source.readings with
    | (shell, .done) =>
      match shell.deliver (if s.quiet then [] else farewell) with
      | (shell, some fault) => ⟨shell, .failed (.stream fault), 1⟩
      | (shell, none) => ⟨shell, .done, 1⟩
    | (shell, .crashed) => ⟨shell, .crashed, 0⟩
    | (shell, ending) => ⟨shell, ending, 1⟩

end Shell
end FileShell
