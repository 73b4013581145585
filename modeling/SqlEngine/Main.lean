import SqlEngine.Arguments
import SqlEngine.CommandLine

/-!
# The program

Reads the files and the channels that a command names, and prints what the call comes to. Without a
script and a command the statements come from the standard input, and from a conversation if that is
a terminal.
-/
namespace SqlEngine

/-- Prints what a call comes to, and gives its exit status. -/
def report (call : Call) : IO UInt32 := do
  let result := call.result
  let output ← IO.getStdout
  output.putStr result.output
  output.flush
  (← IO.getStderr).putStr result.complaint
  return result.exit.toUInt32

/-- Prompts for a line, answers it, and goes on until the lines end or the shell is left. -/
partial def converse (input output complaints : IO.FS.Stream) (shell : Shell) : IO Unit := do
  output.putStr shell.prompt
  output.flush
  let typed ← input.getLine
  if typed.isEmpty then return
  let reply := shell.feed typed
  output.putStr reply.output
  output.flush
  complaints.putStr reply.complaint
  match reply.next with
  | none => return
  | some next => converse input output complaints next

/-- Everything that is left to read. -/
partial def readAll (input : IO.FS.Stream) (before : String) : IO String := do
  let line ← input.getLine
  if line.isEmpty then return before else readAll input (before ++ line)

/-- Carries out a request that names its statements, or asks for them. -/
def perform (arguments : Arguments) : IO UInt32 := do
  let settings ← arguments.settingsFile.mapM fun path => IO.FS.readFile path
  let call (source : Source) : Call := ⟨arguments.json, settings, source⟩
  let input ← IO.getStdin
  match arguments.command, arguments.script with
  | some sql, _ => report (call (.script sql))
  | none, some path =>
    let text ← if path = "-" then readAll input "" else IO.FS.readFile path
    report (call (.script text))
  | none, none =>
    if ← input.isTty then
      match (call (.conversation [])).settings? with
      | none => report (call (.conversation []))
      | some settings =>
        let output ← IO.getStdout
        output.putStr Shell.banner
        converse input output (← IO.getStderr) (Shell.start arguments.json settings)
        return 0
    else report (call (.script (← readAll input "")))

end SqlEngine

open SqlEngine in
/-- Runs the program; a file that cannot be read is a failure. -/
def main (words : List String) : IO UInt32 := do
  match Request.ofWords words with
  | .version => report ⟨false, none, .nothingButVersion⟩
  | .unreadable word =>
    (← IO.getStderr).putStrLn ("error: unexpected argument '" ++ word ++ "' found")
    return 2
  | .run arguments =>
    try perform arguments
    catch failure =>
      (← IO.getStderr).putStrLn ("Error: " ++ toString failure)
      return 1
