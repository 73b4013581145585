import SqlEngine.Shell

/-!
# The command line

What the program does for each way of calling it: run a script and print its records, hold a
conversation, or say its version. Settings that cannot be read, or a script that is not there, end
the program with a failure before anything is printed.
-/
namespace SqlEngine

/-- Where the statements come from. -/
inductive Source where
  | script (text : String)
  | missingScript
  | conversation (lines : List String)
  | nothingButVersion

/-- A call of the program: the form of its output, the text of its settings, and its statements. -/
structure Call where
  json : Bool
  settings : Option String
  source : Source

/-- What a call comes to: the exit status and the text on the two channels. -/
structure Result where
  exit : Nat
  output : String
  complaint : String

namespace Call

/-- The settings of a call; nothing, if their text cannot be read. -/
def settings? (call : Call) : Option Settings :=
  match call.settings with
  | none => some .standard
  | some text => Settings.parse? text

/-- What a script prints. -/
def runScript (json : Bool) (settings : Settings) (script : String) : String :=
  Printer.print ⟨json, settings⟩ ((Engine.start settings).execute script).1

/-- The result of a failure that is not about a statement. -/
def failure : Result := ⟨1, "", ""⟩

/-- What a call comes to. -/
def result (call : Call) : Result :=
  match call.source, call.settings? with
  | .nothingButVersion, _ => ⟨0, programName ++ " " ++ version ++ "\n", ""⟩
  | _, none => failure
  | .missingScript, _ => failure
  | .script text, some settings => ⟨0, runScript call.json settings text, ""⟩
  | .conversation lines, some settings =>
    let (output, complaint) := (Shell.start call.json settings).session lines
    ⟨0, Shell.banner ++ output, complaint⟩

end Call
end SqlEngine
