import SqlEngine.Position
import SqlEngine.Text.Case

/-!
# Tokens

The words of the language, its marks, and the tokens that a statement is cut into. A token keeps
the characters it was read from and the white space and comments skipped before it, so that the
text of any stretch of tokens can be given back.
-/
namespace SqlEngine

/-- The words that are not names, or not always. -/
inductive Keyword where
  | SELECT | FROM | WHERE | INSERT | INTO | VALUES | UPDATE | SET | DELETE | CREATE | TABLE
  | INDEX | UNIQUE | DROP | ALTER | ADD | COLUMN | IF | EXISTS | AND | OR | NOT | LIKE | IN
  | BETWEEN | IS | NULL | AS | ORDER | BY | ASC | DESC | LIMIT | OFFSET | DISTINCT | GROUP
  | HAVING | JOIN | LEFT | RIGHT | INNER | OUTER | FULL | CROSS | ON | PRIMARY | KEY | FOREIGN
  | CHECK | CONSTRAINT | SHOW | DESCRIBE | TABLES
deriving DecidableEq, Inhabited, Repr

namespace Keyword

/-- A keyword in capital letters. -/
def text : Keyword → String
  | SELECT => "SELECT" | FROM => "FROM" | WHERE => "WHERE" | INSERT => "INSERT"
  | INTO => "INTO" | VALUES => "VALUES" | UPDATE => "UPDATE" | SET => "SET"
  | DELETE => "DELETE" | CREATE => "CREATE" | TABLE => "TABLE" | INDEX => "INDEX"
  | UNIQUE => "UNIQUE" | DROP => "DROP" | ALTER => "ALTER" | ADD => "ADD"
  | COLUMN => "COLUMN" | IF => "IF" | EXISTS => "EXISTS" | AND => "AND" | OR => "OR"
  | NOT => "NOT" | LIKE => "LIKE" | IN => "IN" | BETWEEN => "BETWEEN" | IS => "IS"
  | NULL => "NULL" | AS => "AS" | ORDER => "ORDER" | BY => "BY" | ASC => "ASC"
  | DESC => "DESC" | LIMIT => "LIMIT" | OFFSET => "OFFSET" | DISTINCT => "DISTINCT"
  | GROUP => "GROUP" | HAVING => "HAVING" | JOIN => "JOIN" | LEFT => "LEFT"
  | RIGHT => "RIGHT" | INNER => "INNER" | OUTER => "OUTER" | FULL => "FULL"
  | CROSS => "CROSS" | ON => "ON" | PRIMARY => "PRIMARY" | KEY => "KEY"
  | FOREIGN => "FOREIGN" | CHECK => "CHECK" | CONSTRAINT => "CONSTRAINT" | SHOW => "SHOW"
  | DESCRIBE => "DESCRIBE" | TABLES => "TABLES"

/-- Every keyword. -/
def all : List Keyword :=
  [SELECT, FROM, WHERE, INSERT, INTO, VALUES, UPDATE, SET, DELETE, CREATE, TABLE, INDEX, UNIQUE,
   DROP, ALTER, ADD, COLUMN, IF, EXISTS, AND, OR, NOT, LIKE, IN, BETWEEN, IS, NULL, AS, ORDER,
   BY, ASC, DESC, LIMIT, OFFSET, DISTINCT, GROUP, HAVING, JOIN, LEFT, RIGHT, INNER, OUTER, FULL,
   CROSS, ON, PRIMARY, KEY, FOREIGN, CHECK, CONSTRAINT, SHOW, DESCRIBE, TABLES]

/-- The keyword that a word is, whatever the case of its letters. -/
def ofWord? (word : String) : Option Keyword :=
  let small := Text.lower word
  all.find? fun keyword => keyword.text.toLower == small

/-- A keyword that may also stand as a name. -/
def isNonReserved : Keyword → Bool
  | INDEX | UNIQUE | ADD | COLUMN | IF | EXISTS | PRIMARY | KEY | FOREIGN | CHECK | CONSTRAINT
  | SHOW | DESCRIBE | TABLES => true
  | _ => false

end Keyword

/-- The operators and delimiters. -/
inductive Mark where
  | eq | ne | lt | gt | le | ge | plus | minus | star | slash
  | leftParen | rightParen | comma | semicolon | dot
deriving DecidableEq, Inhabited, Repr

/-- A mark as it is written; the two spellings of each equality sign count as one mark. -/
def Mark.text : Mark → String
  | eq => "=" | ne => "<>" | lt => "<" | gt => ">" | le => "<=" | ge => ">="
  | plus => "+" | minus => "-" | star => "*" | slash => "/"
  | leftParen => "(" | rightParen => ")" | comma => "," | semicolon => ";" | dot => "."

/-- What a token is. A string remembers which quote it stood in. -/
inductive TokenKind where
  | keyword (word : Keyword)
  | mark (mark : Mark)
  | number (x : Float)
  | string (quote : Char) (content : String)
  | identifier (name : String)
deriving DecidableEq

/-- A token with the characters skipped before it, its own characters, and its place. -/
structure Token where
  kind : TokenKind
  gap : List Char
  lexeme : List Char
  start : Position

namespace Token

/-- The characters of a token as text. -/
def text (token : Token) : String := String.ofList token.lexeme

/-- The byte offset after a token. -/
def stop (token : Token) : Nat := (token.start.advance token.lexeme).offset

/-- The name that a token gives: an identifier, a string in double quotes, or a keyword that is
not reserved, which keeps its spelling. -/
def name? (token : Token) : Option String :=
  match token.kind with
  | .identifier name => some name
  | .string quote content => if quote = '"' then some content else none
  | .keyword word => if word.isNonReserved then some token.text else none
  | _ => none

/-- The text from the first character of some tokens to their last one. -/
def textOf : List Token → String
  | [] => ""
  | first :: rest =>
    String.ofList (first.lexeme ++ rest.flatMap fun token => token.gap ++ token.lexeme)

end Token

/-- A text cut into tokens: the tokens, what was skipped after the last one, and the place of the
end. -/
structure TokenList where
  tokens : List Token
  gap : List Char
  finish : Position

end SqlEngine
