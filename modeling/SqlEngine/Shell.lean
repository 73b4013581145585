import SqlEngine.Grid
import SqlEngine.Record.Json
import SqlEngine.Settings.Reader

/-!
# The shell

How records are printed, and the interactive shell as a machine that is fed one line after another.
A line that begins with a point is a command, unless a statement is being typed; other lines are
collected until one ends in a semicolon, and then run.
-/
namespace SqlEngine

/-- How a host prints: as JSON lines or as grids. -/
structure Printer where
  json : Bool
  settings : Settings

namespace Printer

/-- The lines that a record is printed as. -/
def recordLines (printer : Printer) (record : Record) : List String :=
  if printer.json then [record.json]
  else match record with
    | .done message => ["OK: " ++ message]
    | .failed error sql =>
      let shown := (Script.preview printer.settings.errorPreview sql).map fun c =>
        if c = '\n' then ' ' else c
      ["Error: " ++ error.message, "  in: " ++ shown]
    | .table l =>
      match Record.note? l with
      | some note => [note]
      | none => Grid.lines printer.settings.cellWidth l ++
          [toString l.rows.length ++ " row(s) returned"]

/-- Lines as text, each ended by a newline. -/
def unlines (lines : List String) : String := String.join (lines.map (· ++ "\n"))

theorem unlines_cons (line : String) (lines : List String) :
    unlines (line :: lines) = line ++ "\n" ++ unlines lines := by
  rw [unlines, List.map_cons, String.join_cons]
  rfl

theorem unlines_append (lines further : List String) :
    unlines (lines ++ further) = unlines lines ++ unlines further := by
  rw [unlines, List.map_append, String.join_append]
  rfl

/-- What records are printed as. -/
def print (printer : Printer) (records : List Record) : String :=
  unlines (records.flatMap printer.recordLines)

theorem print_append (printer : Printer) (records further : List Record) :
    printer.print (records ++ further) = printer.print records ++ printer.print further := by
  rw [print, List.flatMap_append, unlines_append]
  rfl

end Printer

/-- The version of the program. -/
def version : String := "0.1.0"

/-- The name of the program. -/
def programName : String := "pocketsql"

/-- A shell with its engine and the lines of a statement that is not finished. -/
structure Shell where
  printer : Printer
  engine : Engine
  pending : String

/-- What the shell does with a line: what it prints on its two channels, and the shell afterwards,
unless it is left. -/
structure Reply where
  output : String
  complaint : String
  next : Option Shell

namespace Shell

def start (json : Bool) (settings : Settings) : Shell :=
  { printer := ⟨json, settings⟩, engine := .start settings, pending := "" }

/-- What the shell says first. -/
def banner : String :=
  programName ++ " v" ++ version ++ "\n" ++ "Type '.help' for help, '.exit' to quit\n\n"

/-- What the shell prints before it reads a line. -/
def prompt (shell : Shell) : String := if shell.pending.isEmpty then "sql> " else "  -> "

def help : String :=
  Printer.unlines
    ["",
     "Commands:",
     "  .help              Show this help",
     "  .exit, .quit       Leave the shell",
     "  .tables            List tables with their row counts",
     "  .schema            Describe every table",
     "  .schema <table>    Describe one table",
     "  .reset             Drop every table",
     "",
     "Statements end with ';' and may span several lines:",
     "  CREATE TABLE users (id INTEGER PRIMARY KEY, name TEXT, age INT);",
     "  INSERT INTO users (name, age) VALUES ('Alice', 30), ('Bob', 25);",
     "  SELECT name, age FROM users WHERE age > 26 ORDER BY name;",
     "  UPDATE users SET age = age + 1 WHERE name = 'Bob';",
     "  DELETE FROM users WHERE id = 1;",
     ""]

/-- Runs a script and prints its records. -/
def run (shell : Shell) (script : String) : String × Shell :=
  let (records, engine) := shell.engine.execute script
  (shell.printer.print records, { shell with engine })

/-- Describes tables one after another, each under its name. -/
def describeAll (shell : Shell) : List String → String × Shell
  | [] => ("", shell)
  | name :: rest =>
    let (text, shell) := shell.run ("DESCRIBE " ++ name)
    let (texts, shell) := shell.describeAll rest
    (name ++ "\n" ++ text ++ texts, shell)

/-- The shell goes on after it has printed something. -/
def goOn (result : String × Shell) : Reply := ⟨result.1, "", some result.2⟩

/-- Carries out a command. -/
def command (shell : Shell) (input : String) : Reply :=
  match (Text.wordsFrom [] input.toList).map String.ofList with
  | [".exit"] | [".quit"] => ⟨"", "", none⟩
  | [".help"] => goOn (help, shell)
  | [".tables"] => goOn (shell.run "SHOW TABLES")
  | [".schema"] =>
    match shell.engine.catalog.names with
    | [] => goOn ("No tables.\n", shell)
    | names => goOn (shell.describeAll names)
  | [".schema", table] => goOn (shell.run ("DESCRIBE " ++ table))
  | [".reset"] => goOn ("All tables dropped.\n", { shell with engine := shell.engine.reset })
  | _ =>
    ⟨"Type '.help' for available commands\n", "Unknown command: " ++ input ++ "\n", some shell⟩

/-- What the shell does with a line. -/
def feed (shell : Shell) (typed : String) : Reply :=
  let input := Text.trim typed
  if input.startsWith "." && shell.pending.isEmpty then shell.command input
  else if input.isEmpty then ⟨"", "", some shell⟩
  else
    let pending := shell.pending ++ input ++ "\n"
    if input.endsWith ";" then goOn ({ shell with pending := "" }.run pending)
    else ⟨"", "", some { shell with pending }⟩

/-- Everything that is printed on the two channels while lines are typed, up to the end of the input
or to the command that leaves the shell. -/
def session (shell : Shell) : List String → String × String
  | [] => (shell.prompt, "")
  | typed :: rest =>
    let reply := shell.feed typed
    let (output, complaint) := match reply.next with
      | none => ("", "")
      | some next => next.session rest
    (shell.prompt ++ reply.output ++ output, reply.complaint ++ complaint)

end Shell
end SqlEngine
