import SqlEngine.Json.Reader
import SqlEngine.Number.Literal
import SqlEngine.Settings

/-!
# Reading settings

Settings are a JSON object whose members may be left out, or an array of them in their order, which
may be short. Members of other names are passed over; a member may not be given twice.
-/
namespace SqlEngine.Settings

/-- The settings that a document can give. -/
inductive Field where
  | statementPreview | errorPreview | joins | cellWidth
deriving DecidableEq

/-- The fields in their order. -/
def Field.all : List Field := [.statementPreview, .errorPreview, .joins, .cellWidth]

/-- The name of a field in a document. -/
def Field.name : Field → String
  | statementPreview => "statement_preview_chars"
  | errorPreview => "error_sql_preview_chars"
  | joins => "join_semantics"
  | cellWidth => "max_display_width"

/-- A whole number without sign, fraction and exponent, and not too large. -/
def countOf? : Json → Option Nat
  | .number written =>
    if written.toList.all Char.isDigit then
      let n := Number.ofDigits written.toList
      if n ≤ Number.largestCount then some n else none
    else none
  | _ => none

/-- The way of joining that a name stands for. -/
def joinsNamed? (name : Option String) : Option JoinSemantics :=
  if name = some "standard" then some .standard
  else if name = some "left_compat" then some .leftCompat
  else none

/-- The way of joining that a document gives: its name, or its name as the only member of an
object, with nothing in it. -/
def joinsOf? : Json → Option JoinSemantics
  | .text name => joinsNamed? name
  | .object [(name, .null)] => joinsNamed? name
  | _ => none

/-- The settings with one field set from a document. -/
def setField (settings : Settings) (field : Field) (value : Json) : Option Settings :=
  match field with
  | .statementPreview => (countOf? value).map fun n => { settings with statementPreview := n }
  | .errorPreview => (countOf? value).map fun n => { settings with errorPreview := n }
  | .joins => (joinsOf? value).map fun j => { settings with joins := j }
  | .cellWidth => (countOf? value).map fun n => { settings with cellWidth := n }

/-- The settings with the members of an object set; `given` are the fields that were set before. -/
def setMembers (settings : Settings) (given : List Field) :
    List (Option String × Json) → Option Settings
  | [] => some settings
  | (none, _) :: _ => none
  | (some name, value) :: rest =>
    match Field.all.find? (·.name == name) with
    | none => setMembers settings given rest
    | some field =>
      if given.contains field then none
      else do setMembers (← setField settings field value) (field :: given) rest

/-- The settings with fields set in their order. -/
def setItems (settings : Settings) : List Field → List Json → Option Settings
  | _, [] => some settings
  | [], _ :: _ => none
  | field :: fields, value :: rest => do setItems (← setField settings field value) fields rest

/-- The settings that a document gives. -/
def ofJson? : Json → Option Settings
  | .object members => setMembers standard [] members
  | .array items => setItems standard Field.all items
  | _ => none

/-- The settings that a text gives. -/
def parse? (text : String) : Option Settings := do ofJson? (← Json.parse? text)

end SqlEngine.Settings
