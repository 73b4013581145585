import SqlEngine.Proofs.Engine.Tidying
import SqlEngine.Proofs.Script.Stripping
import SqlEngine.Proofs.Token.Assembly
import SqlEngine.Proofs.Token.Keywords

/-!
# Leading words and leading tokens

The kind of a statement is told from its leading words, which are cut out of the text by rules of
their own. In a text without comments they are cut where the tokens are cut: white space and nothing
else stands before them, and both go on to the first character that is neither a letter, a numeral
nor an underscore. The two differ at a word that begins with a numeral, and in how they fold
letters, but no leading keyword begins with a numeral or holds a K. So a text that can be cut into
tokens is of a kind exactly when its tokens begin with the keywords of the kind, and the reader for
that kind always finds the keywords with which it begins.
-/
namespace SqlEngine

open Script Lexer

section Words

theorem leadingWords_trimLeft (limit : Nat) (cs : List Char) :
    leadingWords [] limit (Text.trimLeft cs) = leadingWords [] limit cs := by
  obtain ⟨blanks, hblanks, hcs⟩ := Text.trimLeft_decompose cs
  conv => rhs; rw [hcs]
  rw [leadingWords_nil_blanks hblanks]

theorem leadingWords_mark {c : Char} (hword : Text.continuesWord c = false)
    (hblank : Text.isBlank c = false) (limit : Nat) (rest : List Char) :
    leadingWords [] limit (c :: rest) = [] := by
  cases limit with
  | zero => rfl
  | succ limit =>
    have hword : ¬ Text.continuesWord c = true := by simp [hword]
    have hblank : ¬ Text.isBlank c = true := by simp [hblank]
    rw [leadingWords]
    exact (if_neg hword).trans (if_neg hblank)

/-- A word goes on as far as letters, numerals and underscores do. -/
theorem leadingWords_word {word : List Char} (hne : word ≠ []) (limit : Nat) (cs : List Char) :
    leadingWords word (limit + 1) cs =
      String.ofList (word.reverse ++ (cs.takeWhile Text.continuesWord).map Char.toUpper) ::
        leadingWords [] limit (cs.dropWhile Text.continuesWord) := by
  have hempty : ¬ word.isEmpty = true := by simpa using hne
  induction cs generalizing word with
  | nil => cases limit <;> simp [leadingWords, hne]
  | cons c rest ih =>
    by_cases hc : Text.continuesWord c = true
    · have hstep : leadingWords word (limit + 1) (c :: rest) =
          leadingWords (c.toUpper :: word) (limit + 1) rest := by
        rw [leadingWords]
        exact if_pos hc
      rw [hstep, ih (List.cons_ne_nil _ _) (by simp), List.takeWhile_cons_of_pos hc,
        List.dropWhile_cons_of_pos hc, List.reverse_cons, List.append_assoc, List.map_cons,
        List.singleton_append]
    · rw [List.takeWhile_cons_of_neg hc, List.dropWhile_cons_of_neg hc, List.map_nil,
        List.append_nil]
      by_cases hblank : Text.isBlank c = true
      · rw [leadingWords_isBlank hblank, if_neg hempty, leadingWords_nil_isBlank hblank]
      · rw [leadingWords_mark (by simpa using hc) (by simpa using hblank), leadingWords]
        exact (if_neg hc).trans ((if_neg hblank).trans (if_neg hempty))

/-- A word is given in ASCII capitals. -/
theorem leadingWords_cons {c : Char} (hc : Text.continuesWord c = true) (limit : Nat)
    (rest : List Char) :
    leadingWords [] (limit + 1) (c :: rest) =
      Text.upperAscii (String.ofList (c :: rest.takeWhile Text.continuesWord)) ::
        leadingWords [] limit (rest.dropWhile Text.continuesWord) := by
  have hstep : leadingWords [] (limit + 1) (c :: rest) =
      leadingWords [c.toUpper] (limit + 1) rest := by
    rw [leadingWords]
    exact if_pos hc
  have hcapitals : Text.upperAscii (String.ofList (c :: rest.takeWhile Text.continuesWord)) =
      String.ofList ([c.toUpper] ++ (rest.takeWhile Text.continuesWord).map Char.toUpper) := by
    apply String.toList_inj.1
    rw [Text.upperAscii, String.toList_map, String.toList_ofList, String.toList_ofList,
      List.map_cons, List.singleton_append]
  rw [hstep, leadingWords_word (List.cons_ne_nil _ _), hcapitals, List.reverse_singleton]

end Words

namespace Script

theorem CommentFree.not_opensComment {c : Char} {rest : List Char}
    (h : CommentFree .code (c :: rest)) : ¬ OpensComment c rest := by
  intro hopens
  rcases opensComment_iff.1 hopens with ⟨r, rfl, rfl⟩ | ⟨r, rfl, rfl⟩
  · exact (h ('-', .comment) List.mem_cons_self).1 rfl
  · exact (h ('/', .comment) List.mem_cons_self).1 rfl

/-- Without comments, white space is all that is skipped. -/
theorem CommentFree.skipGap {cs : List Char} (h : CommentFree .code cs) :
    skipGap .blanks cs = Text.trimLeft cs := by
  induction cs with
  | nil => rfl
  | cons c rest ih =>
    rw [skipGap_cons h.not_opensComment, Text.trimLeft, List.dropWhile_cons]
    split
    · next hblank => exact ih ((commentFree_blank hblank).1 h)
    · rfl

theorem CommentFree.trimLeft {cs : List Char} (h : CommentFree .code cs) :
    CommentFree .code (Text.trimLeft cs) :=
  fun p hp => h p ((scan_trimLeft_suffix cs).subset hp)

/-- A word leaves the pass in code. -/
theorem CommentFree.dropWord {cs : List Char} (h : CommentFree .code cs) :
    CommentFree .code (cs.dropWhile Text.continuesWord) := by
  induction cs with
  | nil => exact h
  | cons c rest ih =>
    rw [List.dropWhile_cons]
    split
    · next hword =>
      obtain ⟨-, -, -, hsingle, hdouble⟩ := isPlain_of_continuesWord hword
      have hrest := (commentFree_code h.not_opensComment).1 h
      rcases afterCode_cases c with ⟨hquote, -⟩ | hcode
      · exact absurd hquote (not_or.2 ⟨hsingle, hdouble⟩)
      · rw [hcode] at hrest
        exact ih hrest
    · exact h

end Script

theorem Lexer.wordKind_eq_keyword {word : List Char} {keyword : Keyword} :
    wordKind word = .keyword keyword ↔ Keyword.ofWord? (String.ofList word) = some keyword := by
  rw [wordKind]
  split <;> simp_all

/-- A text without comments begins with a word that is its first token, or neither its words nor its
tokens begin with a keyword. -/
theorem firstWord_cases {cs : List Char} (hfree : CommentFree .code cs) {found : List TokenKind}
    (hkinds : kinds cs = some found) (limit : Nat) :
    (∃ word after behind, CommentFree .code after ∧ kinds after = some behind ∧
      leadingWords [] (limit + 1) cs =
        Text.upperAscii (String.ofList word) :: leadingWords [] limit after ∧
      found = wordKind word :: behind) ∨
    (∀ keyword : Keyword, (leadingWords [] (limit + 1) cs).head? ≠ some keyword.text) ∧
      ∀ keyword, found.head? ≠ some (.keyword keyword) := by
  have hgap := hfree.skipGap
  rw [← leadingWords_trimLeft]
  cases hfront : Text.trimLeft cs with
  | nil =>
    rw [kinds_of_skipGap_nil (hgap.trans hfront)] at hkinds
    cases hkinds
    exact .inr ⟨by simp [leadingWords], by simp⟩
  | cons c tail =>
    rw [kinds_of_skipGap_cons (hgap.trans hfront)] at hkinds
    obtain ⟨⟨kind, after⟩, hread, hrest⟩ := Option.bind_eq_some_iff.1 hkinds
    obtain ⟨behind, hbehind, rfl⟩ := Option.map_eq_some_iff.1 hrest
    by_cases hstarts : Text.startsWord c = true
    · have hword := Text.continuesWord_of_startsWord hstarts
      rw [readKind?_of_startsWord hstarts] at hread
      cases hread
      refine .inl ⟨_, _, behind, ?_, hbehind, leadingWords_cons hword limit tail, rfl⟩
      have hafter := hfree.trimLeft.dropWord
      rwa [hfront, List.dropWhile_cons_of_pos hword] at hafter
    · refine .inr ⟨fun keyword hhead => ?_, fun keyword hhead => ?_⟩
      · by_cases hword : Text.continuesWord c = true
        · rw [leadingWords_cons hword, List.head?_cons, Option.some.injEq] at hhead
          obtain ⟨first, rest, htext, hcapital⟩ := keyword.exists_text_eq
          rw [← hhead, Text.upperAscii, String.toList_map, String.toList_ofList, List.map_cons]
            at htext
          rw [← (List.cons.inj htext).1] at hcapital
          exact hstarts (Text.startsWord_of_toUpper hcapital)
        · have hblank := isBlank_of_skipGap (hgap.trans hfront)
          rw [leadingWords_mark (by simpa using hword) hblank] at hhead
          cases hhead
      · have hkind : kind = .keyword keyword := by simpa using hhead
        rcases readKind?_cases hread with ⟨content, -, -, rfl⟩ | ⟨name, -, -, rfl⟩ |
          ⟨x, -, -, rfl, -⟩ | ⟨hword, -, -⟩ | ⟨mark, -, -, rfl⟩
        · cases hkind
        · cases hkind
        · cases hkind
        · exact hstarts hword
        · cases hkind

/-- Leading words and leading tokens are the same keywords, as long as these hold no K. -/
theorem keywords_prefix_iff {keywords : List Keyword}
    (hkeywords : ∀ keyword ∈ keywords, 'K' ∉ keyword.text.toList) {limit : Nat}
    (hlimit : keywords.length ≤ limit) {cs : List Char} (hfree : CommentFree .code cs)
    {found : List TokenKind} (hkinds : kinds cs = some found) :
    keywords.map Keyword.text <+: leadingWords [] limit cs ↔
      keywords.map TokenKind.keyword <+: found := by
  induction keywords generalizing limit cs found with
  | nil => simp
  | cons keyword keywords ih =>
    obtain ⟨hkeyword, hrest⟩ := List.forall_mem_cons.1 hkeywords
    obtain ⟨limit, rfl⟩ := Nat.exists_eq_add_one_of_ne_zero (Nat.ne_zero_of_lt hlimit)
    rw [List.map_cons, List.map_cons]
    rcases firstWord_cases hfree hkinds limit with
      ⟨word, after, behind, hafter, hbehind, hwords, rfl⟩ | ⟨hwords, htokens⟩
    · have hlength : keywords.length ≤ limit := Nat.le_of_succ_le_succ hlimit
      rw [hwords, List.cons_prefix_cons, List.cons_prefix_cons, ih hrest hlength hafter hbehind,
        eq_comm, ← Keyword.ofWord?_eq_some_iff hkeyword, ← wordKind_eq_keyword,
        eq_comm (b := wordKind word)]
    · constructor
      · intro hprefix
        obtain ⟨more, hmore⟩ := hprefix
        exact absurd (hmore ▸ rfl) (hwords keyword)
      · intro hprefix
        obtain ⟨more, hmore⟩ := hprefix
        exact absurd (hmore ▸ rfl) (htokens keyword)

namespace StatementKind

/-- The keywords that announce a statement of a kind, in each of the ways to word them. -/
def leads : StatementKind → List (List Keyword)
  | .createTable => [[.CREATE, .TABLE]]
  | .createIndex => [[.CREATE, .INDEX], [.CREATE, .UNIQUE, .INDEX]]
  | .insert => [[.INSERT, .INTO]]
  | .select => [[.SELECT]]
  | .update => [[.UPDATE]]
  | .delete => [[.DELETE, .FROM]]
  | .dropTable => [[.DROP, .TABLE]]
  | .showTables => [[.SHOW, .TABLES]]
  | .describe => [[.DESCRIBE], [.DESC]]
  | .alterTable => [[.ALTER, .TABLE]]

/-- The kinds of some tokens begin with the keywords of a kind of statement. -/
def Leads (kind : StatementKind) (found : List TokenKind) : Prop :=
  ∃ keywords ∈ kind.leads, keywords.map TokenKind.keyword <+: found

theorem leads_spec {kind : StatementKind} {keywords : List Keyword} (h : keywords ∈ kind.leads) :
    keywords.length ≤ 3 ∧ ∀ keyword ∈ keywords, 'K' ∉ keyword.text.toList := by
  revert keywords
  cases kind <;> decide

theorem ofWords?_eq_some_iff {words : List String} {kind : StatementKind} :
    ofWords? words = some kind ↔ ∃ keywords ∈ kind.leads, keywords.map Keyword.text <+: words := by
  constructor
  · intro h
    unfold ofWords? at h
    split at h <;> cases h
    all_goals first
      | exact ⟨_, .head _, _, rfl⟩
      | exact ⟨_, .tail _ (.head _), _, rfl⟩
  · rintro ⟨keywords, hkeywords, more, rfl⟩
    cases kind <;> simp only [leads, List.mem_cons, List.not_mem_nil, or_false] at hkeywords
    case createIndex | describe => rcases hkeywords with rfl | rfl <;> rfl
    all_goals
      rw [hkeywords]
      rfl

end StatementKind

namespace Grammar

variable {α β : Type}

/-- The reader `p` reads what `lead` reads before anything else. -/
def Begins (lead : Reader Unit) (p : Reader α) : Prop :=
  ∃ body : Reader α, p = lead >>= fun _ => body

theorem begins_of_bind (lead : Reader Unit) (body : Reader α) :
    Begins lead (lead >>= fun _ => body) := ⟨body, rfl⟩

theorem Begins.bind {lead : Reader Unit} {p : Reader α} (h : Begins lead p) (f : α → Reader β) :
    Begins lead (p >>= f) := by
  obtain ⟨body, rfl⟩ := h
  exact ⟨body >>= f, reader_bind_assoc ..⟩

theorem Begins.after {lead : Reader Unit} {p : Reader α} (h : Begins lead p) (first : Reader β) :
    Begins (first >>= fun _ => lead) (first >>= fun _ => p) := by
  obtain ⟨body, rfl⟩ := h
  exact ⟨body, (reader_bind_assoc ..).symm⟩

/-- Reads the keywords with which a statement of the given kind begins. -/
def readLead : StatementKind → Reader Unit
  | .select => Reader.keyword .SELECT
  | .insert => do
    Reader.keyword .INSERT
    Reader.keyword .INTO
  | .update => Reader.keyword .UPDATE
  | .delete => do
    Reader.keyword .DELETE
    Reader.keyword .FROM
  | .createTable => do
    Reader.keyword .CREATE
    Reader.keyword .TABLE
  | .createIndex => do
    Reader.keyword .CREATE
    let _ ← Reader.optional (.keyword .UNIQUE)
    Reader.keyword .INDEX
  | .dropTable => do
    Reader.keyword .DROP
    Reader.keyword .TABLE
  | .alterTable => do
    Reader.keyword .ALTER
    Reader.keyword .TABLE
  | .showTables => readShowTables
  | .describe => skipOne

/-- A statement is read from its leading keywords on. -/
theorem begins_readKind (kind : StatementKind) : Begins (readLead kind) (readKind kind) := by
  cases kind with
  | select | update => exact (begins_of_bind _ _).bind _
  | describe => exact (begins_of_bind _ _).bind _
  | showTables => exact begins_of_bind _ _
  | insert | delete | createTable | dropTable | alterTable =>
    exact ((begins_of_bind _ _).after _).bind _
  | createIndex => exact (((begins_of_bind _ _).after _).after _).bind _

theorem reads_two {first second : Keyword} {behind : List TokenKind} {ts : List Token}
    (h : ts.map (·.kind) = .keyword first :: .keyword second :: behind) :
    Reads (do Reader.keyword first; Reader.keyword second) ts () (ts.drop 2) := by
  obtain ⟨t, _, rfl, hfirst, hrest⟩ := List.map_eq_cons_iff.1 h
  obtain ⟨u, rest, rfl, hsecond, -⟩ := List.map_eq_cons_iff.1 hrest
  exact reads_bind.2 ⟨(), _, reads_keyword hfirst _, reads_keyword hsecond rest⟩

/-- From tokens that begin with the keywords of a kind, these are read and nothing else. -/
theorem reads_readLead {kind : StatementKind} {keywords : List Keyword}
    (hkeywords : keywords ∈ kind.leads) {ts : List Token}
    (h : keywords.map TokenKind.keyword <+: ts.map (·.kind)) :
    Reads (readLead kind) ts () (ts.drop keywords.length) := by
  obtain ⟨behind, hbehind⟩ := h
  replace hbehind := hbehind.symm
  cases kind <;>
    simp only [StatementKind.leads, List.mem_cons, List.not_mem_nil, or_false] at hkeywords
  case select | update =>
    subst hkeywords
    obtain ⟨t, rest, rfl, ht, -⟩ := List.map_eq_cons_iff.1 hbehind
    exact reads_keyword ht rest
  case insert | delete | createTable | dropTable | alterTable | showTables =>
    subst hkeywords
    exact reads_two hbehind
  case describe =>
    have hlength : keywords.length = 1 := by rcases hkeywords with rfl | rfl <;> rfl
    rw [hlength]
    exact ⟨⟨_, List.drop_suffix 1 ts⟩, rfl, rfl⟩
  case createIndex =>
    rcases hkeywords with rfl | rfl
    · obtain ⟨create, _, rfl, hcreate, hrest⟩ := List.map_eq_cons_iff.1 hbehind
      obtain ⟨index, rest, rfl, hindex, -⟩ := List.map_eq_cons_iff.1 hrest
      have habsent : ∀ t ∈ (index :: rest).head?, t.kind ≠ .keyword .UNIQUE := by
        rintro t ⟨⟩
        rw [hindex]
        decide
      exact reads_bind.2 ⟨(), _, reads_keyword hcreate _,
        reads_bind.2 ⟨false, _, reads_optional_absent habsent, reads_keyword hindex rest⟩⟩
    · obtain ⟨create, _, rfl, hcreate, hrest⟩ := List.map_eq_cons_iff.1 hbehind
      obtain ⟨unique, _, rfl, hunique, hrest⟩ := List.map_eq_cons_iff.1 hrest
      obtain ⟨index, rest, rfl, hindex, -⟩ := List.map_eq_cons_iff.1 hrest
      exact reads_bind.2 ⟨(), _, reads_keyword hcreate _,
        reads_bind.2 ⟨true, _, reads_optional hunique _, reads_keyword hindex rest⟩⟩

end Grammar

section Agreement

variable {s : String} {list : TokenList} (h : Lexer.tokens (Script.stripComments s) = .ok list)
include h

/-- The leading words announce the kind whose keywords the tokens begin with. -/
theorem StatementKind.ofText?_eq_some_iff {kind : StatementKind} :
    StatementKind.ofText? (Script.stripComments s) = some kind ↔
      kind.Leads (list.tokens.map (·.kind)) := by
  have hfree : CommentFree .code (Script.stripComments s).toList := by
    rw [stripComments, String.toList_ofList]
    exact commentFree_trimChars (commentFree_clean .code s.toList)
  have hkinds : kinds (Script.stripComments s).toList = some (list.tokens.map (·.kind)) := by
    have hlist : tokensFrom .start (Script.stripComments s).toList = .ok list := h
    rw [kinds, hlist]
    rfl
  rw [StatementKind.ofText?, StatementKind.ofWords?_eq_some_iff]
  refine exists_congr fun keywords => and_congr_right fun hkeywords => ?_
  obtain ⟨hlength, hletters⟩ := StatementKind.leads_spec hkeywords
  exact keywords_prefix_iff hletters hlength hfree hkinds

/-- A text of a kind is read from its tokens. -/
theorem Statement.ofText_of_leads {kind : StatementKind}
    (hleads : kind.Leads (list.tokens.map (·.kind))) (limit : Nat) :
    Statement.ofText limit (Script.stripComments s) = Statement.ofTokens kind list := by
  rw [ofText, (StatementKind.ofText?_eq_some_iff h).2 hleads]
  simp only [ofTextAs, TokenList.ofText, h]
  rfl

end Agreement

/-- In a text without comments that can be cut into tokens, the leading words announce a kind
exactly when the tokens begin with its keywords. Then the tokens go to the reader for that kind,
which begins by reading these keywords and finds them. -/
theorem Statement.leading_words_and_tokens {s : String} {list : TokenList}
    (h : Lexer.tokens (Script.stripComments s) = .ok list) (kind : StatementKind) :
    (StatementKind.ofText? (Script.stripComments s) = some kind ↔
        kind.Leads (list.tokens.map (·.kind))) ∧
      (StatementKind.ofText? (Script.stripComments s) = some kind →
        (∀ limit, Statement.ofText limit (Script.stripComments s) =
          Statement.ofTokens kind list) ∧
        Grammar.Begins (Grammar.readLead kind) (Grammar.readKind kind) ∧
        ∃ keywords ∈ kind.leads,
          Grammar.Reads (Grammar.readLead kind) list.tokens ()
            (list.tokens.drop keywords.length)) := by
  refine ⟨StatementKind.ofText?_eq_some_iff h, fun hkind => ?_⟩
  have hleads := (StatementKind.ofText?_eq_some_iff h).1 hkind
  obtain ⟨keywords, hkeywords, hprefix⟩ := hleads
  exact ⟨ofText_of_leads h ⟨keywords, hkeywords, hprefix⟩, Grammar.begins_readKind kind,
    keywords, hkeywords, Grammar.reads_readLead hkeywords hprefix⟩

/-- Comments between the keywords go, letter case is folded, and no white space need stand before a
name in grave accents. -/
theorem Statement.leading_words_and_tokens_index :
    let sql := Script.stripComments "-- c\n create /* TABLE */ Unique\tINDEX\x60i\x60 ON t (a)"
    ∃ list, Lexer.tokens sql = .ok list ∧ list.tokens.length = 9 ∧
      StatementKind.ofText? sql = some .createIndex ∧
      (∀ limit, Statement.ofText limit sql = Statement.ofTokens .createIndex list) ∧
      ∃ keywords ∈ StatementKind.createIndex.leads,
        Grammar.Reads (Grammar.readLead .createIndex) list.tokens ()
          (list.tokens.drop keywords.length) := by
  intro sql
  have hread : (Lexer.tokens sql).toOption.map (fun list =>
      ((list.tokens.take 3).map (·.kind), list.tokens.length)) =
      some ([.keyword .CREATE, .keyword .UNIQUE, .keyword .INDEX], 9) := by
    decide +kernel
  obtain ⟨list, hlist, hparts⟩ := exists_ok_of_map hread
  obtain ⟨hfront, hlength⟩ := Prod.mk.inj hparts
  have hleads : StatementKind.createIndex.Leads (list.tokens.map (·.kind)) := by
    have hprefix := (List.take_prefix 3 list.tokens).map (·.kind)
    rw [hfront] at hprefix
    exact ⟨[.CREATE, .UNIQUE, .INDEX], by decide, hprefix⟩
  obtain ⟨hiff, hreads⟩ := leading_words_and_tokens hlist .createIndex
  obtain ⟨hparser, -, hfound⟩ := hreads (hiff.2 hleads)
  exact ⟨list, hlist, hlength, hiff.2 hleads, hparser, hfound⟩

end SqlEngine
