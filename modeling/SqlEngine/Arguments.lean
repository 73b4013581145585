/-!
# The words of a command

The options and the operand that follow the program's name, as a record: `--json`, `--config FILE`,
`-c SQL` or `--command SQL`, and one script path.
-/
namespace SqlEngine

/-- What a user asked for when starting the program. -/
structure Arguments where
  json : Bool
  settingsFile : Option String
  command : Option String
  script : Option String

/-- How the words of a command read: as arguments, as a request for the version, or not at all. -/
inductive Request where
  | run (arguments : Arguments)
  | version
  | unreadable (word : String)

namespace Request

/-- Arguments in which nothing is asked for. -/
def noArguments : Arguments := ⟨false, none, none, none⟩

/-- Reads words into arguments that hold what was read before. A script and a command exclude each
other, and each option is given at most once. -/
def readFrom (seen : Arguments) : List String → Request
  | [] => .run seen
  | "--version" :: _ | "-V" :: _ => .version
  | "--json" :: rest =>
    if seen.json then .unreadable "--json" else readFrom { seen with json := true } rest
  | "--config" :: path :: rest =>
    if seen.settingsFile.isSome then .unreadable "--config"
    else readFrom { seen with settingsFile := some path } rest
  | "--command" :: sql :: rest | "-c" :: sql :: rest =>
    if seen.command.isSome || seen.script.isSome then .unreadable "--command"
    else readFrom { seen with command := some sql } rest
  | word :: rest =>
    if word.startsWith "-" && word != "-" then .unreadable word
    else if seen.command.isSome || seen.script.isSome then .unreadable word
    else readFrom { seen with script := some word } rest

/-- Reads the words of a command. -/
def ofWords (words : List String) : Request := readFrom noArguments words

end Request
end SqlEngine
