import SqlEngine.Number.Binary

/-!
# Settings

What a host can choose: how much of a statement is shown in messages, how joins are carried out, and
how wide the cells of a grid may be.
-/
namespace SqlEngine

/-- How RIGHT, FULL and CROSS joins are carried out: as they are, or as LEFT joins. -/
inductive JoinSemantics where
  | standard
  | leftCompat
deriving DecidableEq, Inhabited, Repr

def JoinSemantics.description : JoinSemantics → String
  | standard => "standard join semantics"
  | leftCompat => "RIGHT/FULL/CROSS executed as LEFT"

structure Settings where
  /-- How many characters of an unknown statement its failure shows. -/
  statementPreview : Nat
  /-- How many characters of a failed statement a host shows. -/
  errorPreview : Nat
  joins : JoinSemantics
  /-- How many characters a cell of a grid has at most. -/
  cellWidth : Nat
deriving DecidableEq, Repr

namespace Settings

def standard : Settings :=
  { statementPreview := 40, errorPreview := 80, joins := .standard, cellWidth := 50 }

/-- Joins of older engines. -/
def compat : Settings := { standard with joins := .leftCompat }

/-- Statements are shown in full. -/
def untruncated : Settings :=
  { standard with statementPreview := Number.largestCount, errorPreview := Number.largestCount }

end Settings

instance : Inhabited Settings := ⟨Settings.standard⟩

end SqlEngine
