import FileShell.Command.Look
import FileShell.Command.Alter

namespace FileShell.Command

def run (s : Surroundings) (w : World) (args : List Text) : Command → Effect
  | help => w.finish helpText
  | pwd => runPwd w
  | ls => runLs s.zone w args
  | cd => runCd w args
  | cp => runCp w args
  | mv => runMv w args
  | rm => runRm w args
  | mkdir => runMkdir w args
  | search => runSearch w args
  | chmod => runChmod s.permissions w args
  | exit => ⟨w, [], .done .leave, []⟩

/-- Runs the command of a name; names are told apart by case, and an unknown one is a failure. -/
def execute (s : Surroundings) (w : World) (name : Text) (args : List Text) : Effect :=
  match ofName? name with
  | none => w.refuse (.unknownCommand name)
  | some command =>
    let effect := command.run s w args
    { effect with events := .dispatching name args :: effect.events }

end FileShell.Command
