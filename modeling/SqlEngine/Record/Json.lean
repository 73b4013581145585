import SqlEngine.Engine
import SqlEngine.Json

/-!
# Records as JSON

One object for each record, whose first member says which record it is.
-/
namespace SqlEngine

/-- A cell as a JSON document. -/
def Value.json : Value → String
  | .null => "null"
  | .number x => Number.json x
  | .text s => Json.quote s

namespace Record

/-- A record as a JSON document. -/
def json : Record → String
  | done message => Json.record [("type", Json.quote "ok"), ("message", Json.quote message)]
  | failed error sql =>
    Json.record
      [("type", Json.quote "error"), ("message", Json.quote error.message), ("sql", Json.quote sql)]
  | table l =>
    let cells (row : List Value) := Json.list (row.map Value.json)
    Json.record <|
      [("type", Json.quote "table"), ("columns", Json.list (l.columns.map Json.quote)),
       ("rows", Json.list (l.rows.map cells)), ("row_count", toString l.rows.length)] ++
      ((note? l).map fun note => ("message", Json.quote note)).toList

end Record
end SqlEngine
