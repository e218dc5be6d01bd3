import RouteControl.Bytes.Hex
import RouteControl.CommandLine.Execute
import RouteControl.CommandLine.Invocation
import RouteControl.Kernel.Recording

/-!
# The command line

Runs one command against a recording of the kernel's replies, which is read from standard input.
What the command writes goes to standard output, and an error to standard error.  The exit code is
zero on success, one where the command fails and two where there is no command to run.
-/

namespace RouteControl

partial def CommandLine.remainingLines (input : IO.FS.Stream) : IO (List String) := do
  let line ← input.getLine
  if line.isEmpty then return []
  else return line :: (← remainingLines input)

def Invocation.run (i : Invocation) (replies : List Script.Reply) : IO UInt32 := do
  let c : Connection := { settings := i.settings, kernel := { replies } }
  let (result, c) := c.run (CommandLine.execute i.format i.command)
  if i.verbose then
    for message in c.kernel.sent do
      IO.eprintln message.toHex
  let outcome := Outcome.ofResult result
  match result with
  | .ok text => IO.print text
  | .error e => IO.eprintln s!"Error: {e.message} ({outcome.classification})"
  return UInt32.ofNat outcome.exitCode

end RouteControl

open RouteControl RouteControl.CommandLine in
def main (arguments : List String) : IO UInt32 := do
  match invocation? arguments with
  | none =>
    IO.eprintln "Error: not a command"
    return 2
  | some invocation =>
    match Script.ofLines? (← remainingLines (← IO.getStdin)) with
    | none =>
      IO.eprintln "Error: the recording is not in hexadecimal digits"
      return 2
    | some replies => invocation.run replies
