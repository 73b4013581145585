import SqlEngine.Text.Blank
import SqlEngine.Text.Case

/-!
# Columns

A column has a name in small letters, a type that is kept as a plain word, and two constraints.
The type matters in one place only: the integer types make a primary key count by itself.
-/
namespace SqlEngine

/-- A column of a table. -/
structure Column where
  name : String
  type : String
  primaryKey : Bool
  notNull : Bool
deriving DecidableEq, Inhabited

/-- The types whose primary keys are numbered automatically. -/
def integerTypes : List String :=
  ["INTEGER", "INT", "BIGINT", "SMALLINT", "TINYINT", "SERIAL"]

/-- A type is the capital form of what stands before a bracket; nothing there means TEXT. -/
def normalizeType (raw : String) : String :=
  let word := Text.trimChars (raw.toList.takeWhile (· != '('))
  if word.isEmpty then "TEXT" else Text.upper (String.ofList word)

namespace Column

/-- A column without constraints. -/
def plain (name type : String) : Column :=
  { name := Text.lower name, type := normalizeType type, primaryKey := false, notNull := false }

/-- An integer primary key is numbered when a row brings no value for it. -/
def isAutoIncrement (column : Column) : Bool :=
  column.primaryKey && integerTypes.contains column.type

end Column
end SqlEngine
