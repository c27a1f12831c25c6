import FileShell.Command.Execute

namespace FileShell

/-- A command with its operands; what else it is given is written before them. -/
inductive Operation (α : Type) where
  | enter (dir : α)
  | list (path : α)
  | make (dir : α)
  | remove (recursive : Bool) (path : α)
  | copy (source target : α)
  | move (source target : α)
  | permit (mode : Text) (path : α)
deriving DecidableEq, Repr

namespace Operation

variable {α β : Type}

def map (f : α → β) : Operation α → Operation β
  | enter dir => enter (f dir)
  | list path => list (f path)
  | make dir => make (f dir)
  | remove recursive path => remove recursive (f path)
  | copy source target => copy (f source) (f target)
  | move source target => move (f source) (f target)
  | permit mode path => permit mode (f path)

def operands : Operation α → List α
  | enter path | list path | make path | remove _ path | permit _ path => [path]
  | copy source target | move source target => [source, target]

theorem map_congr {f g : α → β} {op : Operation α} (h : ∀ a ∈ op.operands, f a = g a) :
    op.map f = op.map g := by
  cases op <;> simp_all [operands, map]

def command : Operation α → Command
  | enter _ => .cd
  | list _ => .ls
  | make _ => .mkdir
  | remove _ _ => .rm
  | copy _ _ => .cp
  | move _ _ => .mv
  | permit _ _ => .chmod

/-- The words between the command and its operands. -/
def options : Operation α → List Text
  | remove true _ => [Command.recursiveFlag]
  | permit mode _ => [mode]
  | _ => []

def args (op : Operation Text) : List Text := op.options ++ op.operands

open Command in
/-- What an operation does to the paths that it is given. -/
def effect (s : Surroundings) (w : World) : Operation Path → Effect
  | enter dir =>
    if !w.files.isDirectory dir then w.refuse (.directoryNotFound dir)
    else
      match w.files.canonical dir with
      | .error fault => w.refuse (.files dir fault)
      | .ok place =>
        { World.finish { w with session := { w.session with place := place } } [] with
          events := [.changedDirectory place.path] }
  | list path =>
    if !w.files.reaches path then w.refuse (.pathNotFound path)
    else if !w.files.isDirectory path then w.refuse (.notADirectory path)
    else
      match w.files.listing path with
      | .error fault => w.refuse (.files path fault)
      | .ok entries =>
        let (text, whole) := rows s.zone entries
        if whole then w.finish text else ⟨w, text, .crashed, []⟩
  | make dir => w.apply dir (w.files.makeDirectory dir)
  | remove recursive path => removal w recursive path
  | copy source target =>
    if !w.files.reaches source then w.refuse (.pathNotFound source)
    else w.leave (culprit w.files source target) (w.files.copy source target)
  | move source target =>
    match absent? w.files source with
    | some failure => w.refuse failure
    | none => w.apply source (w.files.rename source target)
  | permit mode path =>
    match s.permissions with
    | none => w.finish (unsupportedNotice ++ ['\n'])
    | some control =>
      match Mode.parse? mode with
      | none => w.refuse (.invalidMode mode)
      | some m =>
        { w with calls := w.calls ++ [(path, m)] }.apply path (control.setMode w.calls w.files path m)

/-- Given words, a command works on the paths that its operands mean, but `rm` takes the flag for
directories for no operand. -/
theorem run_args (s : Surroundings) (w : World) (op : Operation Text) :
    op.command.run s w op.args =
      if op = remove false Command.recursiveFlag then w.refuse Command.rmUsage
      else (op.map w.session.resolve).effect s w := by
  cases op with
  | remove recursive path =>
    cases recursive with
    | true => simp [command, args, options, operands, Command.run, Command.runRm, map, effect]
    | false =>
      simp [command, args, options, operands, Command.run, Command.runRm, map, effect]
  | _ => exact (if_neg nofun).symm

end Operation
end FileShell
