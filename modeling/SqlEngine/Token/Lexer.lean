import SqlEngine.Number.Literal
import SqlEngine.Text.Blank
import SqlEngine.Text.Letter
import SqlEngine.Token

/-!
# Cutting a text into tokens

White space and comments are skipped; a block comment that is not closed runs to the end. Strings
stand in single or double quotes, where a doubled quote and a quote after a backslash are one
quote, and any other backslash stands for itself. Names may stand between grave accents.
-/
namespace SqlEngine

/-- Why a text cannot be cut into tokens, with the place where the offending token begins. -/
inductive LexFault where
  | unexpectedCharacter (c : Char) (place : Position)
  | unterminatedString (place : Position)
  | unterminatedName (place : Position)
  | invalidNumber (written : String)
deriving DecidableEq

namespace Lexer

/-- What is being skipped between two tokens. -/
inductive Skipping where
  | blanks
  | lineComment
  | blockComment

/-- The characters from the next token on. -/
def skipGap : Skipping → List Char → List Char
  | _, [] => []
  | .blanks, '-' :: '-' :: rest => skipGap .lineComment rest
  | .blanks, '/' :: '*' :: rest => skipGap .blockComment rest
  | .blanks, c :: rest => if Text.isBlank c then skipGap .blanks rest else c :: rest
  | .lineComment, c :: rest => if c = '\n' then skipGap .blanks rest else skipGap .lineComment rest
  | .blockComment, '*' :: '/' :: rest => skipGap .blanks rest
  | .blockComment, _ :: rest => skipGap .blockComment rest

/-- The content of a string, read after its opening quote, and the characters after the closing
one; `none` if it is not closed. -/
def readString? (quote : Char) : List Char → Option (List Char × List Char)
  | [] => none
  | [c] => if c = quote then some ([], []) else none
  | c :: d :: rest =>
    if c = quote then
      if d = quote then
        (readString? quote rest).map fun (content, after) => (quote :: content, after)
      else some ([], d :: rest)
    else if c = '\\' then
      (readString? quote rest).map fun (content, after) =>
        (if d = quote then d :: content else '\\' :: d :: content, after)
    else (readString? quote (d :: rest)).map fun (content, after) => (c :: content, after)

/-- The characters of a name between grave accents, read after the first accent, and the
characters after the second one. -/
def readQuotedName? : List Char → Option (List Char × List Char)
  | [] => none
  | c :: rest =>
    if c = '\x60' then some ([], rest)
    else (readQuotedName? rest).map fun (name, after) => (c :: name, after)

/-- Digits and points at the front, and the rest. -/
def readDigits (cs : List Char) : List Char × List Char :=
  (cs.takeWhile fun c => c.isDigit || c == '.', cs.dropWhile fun c => c.isDigit || c == '.')

/-- A sign at the front, and the rest. -/
def readSign : List Char → List Char × List Char
  | [] => ([], [])
  | c :: rest => if c = '+' || c = '-' then ([c], rest) else ([], c :: rest)

/-- An exponent at the front, if digits stand in it, and the rest. -/
def readExponent : List Char → List Char × List Char
  | [] => ([], [])
  | c :: rest =>
    let (sign, digits) := readSign rest
    let power := digits.takeWhile Char.isDigit
    if (c = 'e' || c = 'E') && !power.isEmpty then
      (c :: sign ++ power, digits.dropWhile Char.isDigit)
    else ([], c :: rest)

/-- A number at the front, as it is written, and the rest. -/
def readNumber (cs : List Char) : List Char × List Char :=
  let (digits, rest) := readDigits cs
  let (exponent, after) := readExponent rest
  (digits ++ exponent, after)

/-- The token that a word is: a keyword, or else an identifier. -/
def wordKind (word : List Char) : TokenKind :=
  match Keyword.ofWord? (String.ofList word) with
  | some keyword => .keyword keyword
  | none => .identifier (String.ofList word)

/-- A mark that begins with the given character, and the characters after it. -/
def readMark? (c : Char) (rest : List Char) : Option (Mark × List Char) :=
  match c, rest with
  | '=', '=' :: after => some (.eq, after)
  | '=', _ => some (.eq, rest)
  | '!', '=' :: after => some (.ne, after)
  | '<', '=' :: after => some (.le, after)
  | '<', '>' :: after => some (.ne, after)
  | '<', _ => some (.lt, rest)
  | '>', '=' :: after => some (.ge, after)
  | '>', _ => some (.gt, rest)
  | '+', _ => some (.plus, rest)
  | '-', _ => some (.minus, rest)
  | '*', _ => some (.star, rest)
  | '/', _ => some (.slash, rest)
  | '(', _ => some (.leftParen, rest)
  | ')', _ => some (.rightParen, rest)
  | ',', _ => some (.comma, rest)
  | ';', _ => some (.semicolon, rest)
  | '.', _ => some (.dot, rest)
  | _, _ => none

/-- The token that begins with `c` at the given place, and the characters after it. -/
def readToken (place : Position) (c : Char) (rest : List Char) :
    Except LexFault (TokenKind × List Char) :=
  if c = '\'' || c = '"' then
    match readString? c rest with
    | some (content, after) => .ok (.string c (String.ofList content), after)
    | none => .error (.unterminatedString place)
  else if c = '\x60' then
    match readQuotedName? rest with
    | some (name, after) => .ok (.identifier (String.ofList name), after)
    | none => .error (.unterminatedName place)
  else if c.isDigit then
    let (written, after) := readNumber (c :: rest)
    match Number.ofChars? written with
    | some x => .ok (.number x, after)
    | none => .error (.invalidNumber (String.ofList written))
  else if Text.startsWord c then
    .ok (wordKind (c :: rest.takeWhile Text.continuesWord), rest.dropWhile Text.continuesWord)
  else
    match readMark? c rest with
    | some (mark, after) => .ok (.mark mark, after)
    | none => .error (.unexpectedCharacter c place)

theorem skipGap_suffix (s : Skipping) (cs : List Char) : skipGap s cs <:+ cs := by
  fun_induction skipGap s cs <;> first | exact List.suffix_refl _ | grind [List.suffix_cons_iff]

theorem readString?_suffix {quote : Char} {cs content after : List Char}
    (h : readString? quote cs = some (content, after)) : after <:+ cs := by
  fun_induction readString? quote cs generalizing content after <;>
    simp_all [Option.map_eq_some_iff] <;> grind [List.suffix_cons_iff]

theorem readQuotedName?_suffix {cs name after : List Char}
    (h : readQuotedName? cs = some (name, after)) : after <:+ cs := by
  fun_induction readQuotedName? cs generalizing name after with
  | case1 => cases h
  | case2 => simp_all
  | case3 c rest hc ih =>
    obtain ⟨⟨name', after'⟩, hread, heq⟩ := Option.map_eq_some_iff.1 h
    cases heq
    exact (ih hread).trans (List.suffix_cons c rest)

theorem readSign_suffix (cs : List Char) : (readSign cs).2 <:+ cs := by
  fun_cases readSign cs <;> grind [List.suffix_cons_iff]

theorem readExponent_suffix (cs : List Char) : (readExponent cs).2 <:+ cs := by
  cases cs with
  | nil => exact List.suffix_refl _
  | cons c rest =>
    simp only [readExponent]
    split
    · exact ((List.dropWhile_suffix _).trans (readSign_suffix rest)).trans (List.suffix_cons c rest)
    · exact List.suffix_refl _

theorem readNumber_suffix (c : Char) (rest : List Char) (h : c.isDigit) :
    (readNumber (c :: rest)).2 <:+ rest := by
  have hd : (readDigits (c :: rest)).2 = rest.dropWhile fun c => c.isDigit || c == '.' := by
    simp [readDigits, h]
  have he := readExponent_suffix (readDigits (c :: rest)).2
  rw [hd] at he
  simp only [readNumber]
  rw [hd]
  exact he.trans (List.dropWhile_suffix _)

theorem readMark?_suffix {c : Char} {rest after : List Char} {mark : Mark}
    (h : readMark? c rest = some (mark, after)) : after <:+ rest := by
  unfold readMark? at h
  split at h <;> simp_all

/-- What is left after a token follows its first character. -/
theorem readToken_suffix {place : Position} {c : Char} {rest after : List Char} {kind : TokenKind}
    (h : readToken place c rest = .ok (kind, after)) : after <:+ rest := by
  unfold readToken at h
  split at h
  · split at h
    · rename_i hs
      cases h
      exact readString?_suffix hs
    · cases h
  · split at h
    · split at h
      · rename_i hn
        cases h
        exact readQuotedName?_suffix hn
      · cases h
    · split at h
      · rename_i hd
        dsimp only at h
        split at h
        · cases h
          exact readNumber_suffix c rest hd
        · cases h
      · split at h
        · cases h
          exact List.dropWhile_suffix _
        · split at h
          · rename_i hm
            cases h
            exact readMark?_suffix hm
          · cases h

/-- The tokens of `cs`, which begins at the given place. -/
def tokensFrom (place : Position) (cs : List Char) : Except LexFault TokenList :=
  let rest := skipGap .blanks cs
  let gap := cs.take (cs.length - rest.length)
  let start := place.advance gap
  match hrest : rest with
  | [] => .ok ⟨[], gap, start⟩
  | c :: tail =>
    match hread : readToken start c tail with
    | .error fault => .error fault
    | .ok (kind, after) =>
      let lexeme := rest.take (rest.length - after.length)
      have : after.length < cs.length := by
        have h1 := (skipGap_suffix .blanks cs).length_le
        have h2 := (readToken_suffix hread).length_le
        have h3 : (skipGap .blanks cs).length = tail.length + 1 := by
          rw [show skipGap .blanks cs = c :: tail from hrest]
          rfl
        omega
      (tokensFrom (start.advance lexeme) after).map fun list =>
        { list with tokens := ⟨kind, gap, lexeme, start⟩ :: list.tokens }
termination_by cs.length

/-- The tokens of a text. -/
def tokens (sql : String) : Except LexFault TokenList := tokensFrom .start sql.toList

end Lexer
end SqlEngine
