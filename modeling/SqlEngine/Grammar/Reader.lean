import SqlEngine.Error

/-!
# Reading from tokens

A reader takes what it needs from the front of a list of tokens and leaves the rest; its type says
that the rest is an end part of what it was given. A reader that fails gives the reason, with the
token at which it failed. Lists whose items are separated by a mark are read here once for all.
-/
namespace SqlEngine.Grammar

/-- Why tokens are refused. A complaint without a token is about the end of the text. -/
inductive Refusal where
  | complaint (token : Option Token) (what : Complaint)
  | argumentCount (f : Function) (given : Nat)
  | schema (cause : SchemaError)
  | onlyAddColumn

/-- The failure that a refusal is, in a text that ends at the given place. -/
def Refusal.toError (finish : Position) : Refusal → SqlError
  | complaint token what => .wording (.complaint ((token.map (·.start)).getD finish) what)
  | argumentCount f given => .wording (.argumentCount f given)
  | schema cause => .schema cause
  | onlyAddColumn => .onlyAddColumn

/-- What is left of some tokens. -/
abbrev Rest (ts : List Token) := { rest : List Token // rest <:+ ts }

/-- Everything is left. -/
def Rest.whole (ts : List Token) : Rest ts := ⟨ts, List.suffix_refl ts⟩

/-- What is left of what is left. -/
def Rest.trans {ts : List Token} (r : Rest ts) (s : Rest r.1) : Rest ts := ⟨s.1, s.2.trans r.2⟩

/-- What is left after the first token. -/
def Rest.tail (t : Token) (ts : List Token) (r : Rest ts) : Rest (t :: ts) :=
  ⟨r.1, r.2.trans (List.suffix_cons t ts)⟩

theorem Rest.length_le {ts : List Token} (r : Rest ts) : r.1.length ≤ ts.length := r.2.length_le

/-- What reading from the given tokens comes to. -/
abbrev Reading (α : Type) (ts : List Token) := Except Refusal (α × Rest ts)

/-- What reads a thing from tokens. -/
def Reader (α : Type) := (ts : List Token) → Reading α ts

/-- A first reading followed by one that depends on it. -/
def Reading.andThen {α β : Type} {ts : List Token} (first : Reading α ts)
    (next : α → Reader β) : Reading β ts :=
  match first with
  | .error e => .error e
  | .ok (a, r) =>
    match next a r.1 with
    | .error e => .error e
    | .ok (b, s) => .ok (b, r.trans s)

instance : Monad Reader where
  pure a := fun ts => .ok (a, .whole ts)
  bind p f := fun ts => (p ts).andThen f

/-- The text of a token, or a phrase for the end of the text. -/
def textAt : List Token → String
  | [] => "end of statement"
  | t :: _ => t.text

/-- Refuses the tokens because of the first one. -/
def refuse {α : Type} (what : Complaint) : Reader α := fun ts => .error (.complaint ts.head? what)

/-- The first token has the given kind. -/
def startsWith (kind : TokenKind) : List Token → Bool
  | [] => false
  | t :: _ => t.kind = kind

namespace Reader

/-- The tokens that lie ahead. -/
def ahead : Reader (List Token) := fun ts => .ok (ts, .whole ts)

/-- Takes the first token if it has the given kind, and says whether it did. -/
def optional (kind : TokenKind) : Reader Bool
  | [] => .ok (false, .whole [])
  | t :: ts => if t.kind = kind then .ok (true, .tail t ts (.whole ts)) else .ok (false, .whole _)

/-- Takes the given keyword. -/
def keyword (word : Keyword) : Reader Unit
  | [] => .error (.complaint none (.expectedKeyword word (textAt [])))
  | t :: ts =>
    if t.kind = .keyword word then .ok ((), .tail t ts (.whole ts))
    else .error (.complaint t (.expectedKeyword word (textAt (t :: ts))))

/-- Takes the given mark. -/
def mark (m : Mark) : Reader Unit
  | [] => .error (.complaint none (.expectedMark m (textAt [])))
  | t :: ts =>
    if t.kind = .mark m then .ok ((), .tail t ts (.whole ts))
    else .error (.complaint t (.expectedMark m (textAt (t :: ts))))

/-- Takes a name as it is written. -/
def identifier : Reader String
  | [] => .error (.complaint none .expectedIdentifier)
  | t :: ts =>
    match t.name? with
    | some name => .ok (name, .tail t ts (.whole ts))
    | none => .error (.complaint t .expectedIdentifier)

/-- Takes a name of a table or column, in small letters. -/
def name : Reader String := do return Text.lower (← identifier)

/-- A name lies ahead. -/
def startsName : List Token → Bool
  | [] => false
  | t :: _ => t.name?.isSome

/-- Takes a name if one lies ahead. -/
def optionalName : Reader (Option String) := do
  if startsName (← ahead) then return some (← name) else return none

/-- Reads further items as long as the separator stands before each of them. -/
def furtherItems {α : Type} (separator : TokenKind) (item : Reader α) : Reader (List α)
  | [] => .ok ([], .whole [])
  | t :: ts =>
    if t.kind = separator then
      match item ts with
      | .error e => .error e
      | .ok (a, r) =>
        match furtherItems separator item r.1 with
        | .error e => .error e
        | .ok (as, s) => .ok (a :: as, .tail t ts (r.trans s))
    else .ok ([], .whole _)
termination_by ts => ts.length
decreasing_by
  have := r.length_le
  simp only [List.length_cons]
  omega

/-- Reads one or more items with a separator between them. -/
def separated {α : Type} (separator : TokenKind) (item : Reader α) : Reader (List α) := do
  let first ← item
  return first :: (← furtherItems separator item)

end Reader
end SqlEngine.Grammar
