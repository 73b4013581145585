import SqlEngine.Main
import SqlEngine.Proofs.Join.Decomposition
import SqlEngine.Pattern.Cache
import SqlEngine.Proofs.Engine.Run
import SqlEngine.Proofs.Grammar.Columns
import SqlEngine.Proofs.Grammar.Written
import SqlEngine.Proofs.Script.Meaning
import SqlEngine.Proofs.Grammar.ReadBack
import SqlEngine.Proofs.Grammar.Writable
import SqlEngine.Proofs.Grammar.WrittenCondition
import SqlEngine.Proofs.Grammar.Brackets
import SqlEngine.Proofs.Grammar.AtomReadBack
import SqlEngine.Proofs.Grammar.Roundtrip
import SqlEngine.Proofs.Join.Loops
import SqlEngine.Proofs.Row.Shape
import SqlEngine.Proofs.Join.Columns
import SqlEngine.Proofs.Query.Stages
import SqlEngine.Proofs.Query.Columns
import SqlEngine.Proofs.Query.Unmatched
import SqlEngine.Proofs.Script.Splitting
import SqlEngine.Proofs.Engine.TextLiteral
import SqlEngine.Proofs.Query.Having
import SqlEngine.Proofs.Engine.Isolation
import SqlEngine.Proofs.Engine.Numbering
import SqlEngine.Proofs.Grammar.Foreign
import SqlEngine.Proofs.Engine.Selection
import SqlEngine.Proofs.Query.DistinctCount
import SqlEngine.Proofs.Query.Paging
import SqlEngine.Proofs.Engine.Spelling
import SqlEngine.Proofs.Engine.Commutation
import SqlEngine.Proofs.Token.Places
import SqlEngine.Proofs.Grammar.Sparse
import SqlEngine.Proofs.Engine.Widening
import SqlEngine.Proofs.Row.Partition
import SqlEngine.Proofs.Pattern.Like
import SqlEngine.Proofs.Value.Transitivity
import SqlEngine.Proofs.Cursor.Safety
import SqlEngine.Proofs.Condition.Missing
import SqlEngine.Proofs.Engine.Updating
import SqlEngine.Proofs.Engine.Inserting
import SqlEngine.Proofs.Join.Turning
import SqlEngine.Proofs.Pattern.Parts
import SqlEngine.Proofs.Shell.Describing
import SqlEngine.Proofs.Engine.Tidying
import SqlEngine.Proofs.Shell.Typing
import SqlEngine.Proofs.Script.Pieces
import SqlEngine.Proofs.Aggregate
import SqlEngine.Proofs.Expr.Fault
import SqlEngine.Proofs.Query.Named
import SqlEngine.Proofs.Row.Algebra
import SqlEngine.Proofs.Grid.Alignment
import SqlEngine.Proofs.Grammar.TableBody
