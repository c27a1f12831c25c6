import FileShell.Invocation
import Std.Time.DateTime.Timestamp

namespace FileShell

def knownVariables : List String :=
  ["HOME", "TZ", "FSH_LOG", "NO_COLOR", "CLICOLOR", "CLICOLOR_FORCE", "COLORTERM", "TERM",
    "TERM_PROGRAM"]

def nowInstant : IO Instant := do
  return (← Std.Time.Timestamp.now).toNanosecondsSinceUnixEpoch.val

def readEnvironment : IO Environment := do
  let mut found := []
  for name in knownVariables do
    if let some value ← IO.getEnv name then
      found := found ++ [(name.toList, value.toList)]
  return found

end FileShell

open FileShell in
def main (args : List String) : IO UInt32 := do
  let input ← (← IO.getStdin).readBinToEnd
  let result := Invocation.run (FileSystem.empty (← nowInstant))
    ⟨args.map String.toList, ← readEnvironment, input.toList, .unknown⟩
  let out ← IO.getStdout
  out.write ⟨result.out.toArray⟩
  out.flush
  (← IO.getStderr).putStr (String.ofList result.err)
  return result.code.toUInt32
