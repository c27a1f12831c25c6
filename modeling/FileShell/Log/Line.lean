import FileShell.Color
import FileShell.Log

namespace FileShell

def Level.colorCode : Level → String
  | .error => "31"
  | .warn => "33"
  | .info => "32"
  | .debug => "34"
  | .trace => "35"

namespace Event

def paint (colored : Bool) (code : String) (t : Text) : Text :=
  if colored then Style.escape code ++ t ++ Style.closing else t

def text (colored : Bool) (e : Event) : Text :=
  e.message.toList ++ e.fields.flatMap fun (name, value) =>
    ' ' :: paint colored "3" name.toList ++ paint colored "2" ['='] ++ value

def line (e : Event) : Text := e.level.name.toList ++ ' ' :: e.text false

def alignedLine (colored : Bool) (e : Event) : Text :=
  paint colored e.level.colorCode (Text.padLeft 5 ' ' e.level.name.toList) ++
    ' ' :: e.text colored ++ ['\n']

end Event
end FileShell
