import SqlEngine.Proofs.Computation
import SqlEngine.Proofs.Script.Single
import SqlEngine.Proofs.Token.Cuts

/-!
# Statements and semicolons

A script is cut at its terminators, which are given here by their byte offsets: the statements are
the texts between them, trimmed, without the empty ones. The semicolons that are tokens stand at
the same offsets, as long as no name between grave accents holds what the pass over the script
would take for a terminator, a quote or a comment sign.
-/
namespace SqlEngine.Script

open Lexer
open String (utf8Len)

/-- The byte offsets of the terminators; the first character stands at the given offset. -/
def terminatorOffsets : Nat → List (Char × Role) → List Nat
  | _, [] => []
  | offset, (c, role) :: rest =>
    if role = .terminator then offset :: terminatorOffsets (offset + c.utf8Size) rest
    else terminatorOffsets (offset + c.utf8Size) rest

/-- The texts between the given one-byte stops, from an offset on. -/
def textsBetween (text : String) (start : Nat) : List Nat → List String
  | [] => [String.Pos.Raw.extract text ⟨start⟩ text.rawEndPos]
  | stop :: stops =>
    String.Pos.Raw.extract text ⟨start⟩ ⟨stop⟩ :: textsBetween text (stop + 1) stops

/-- The byte offsets of the semicolons among some tokens. -/
def semicolons (tokens : List Token) : List Nat :=
  (tokens.filter (·.kind = .mark .semicolon)).map (·.start.offset)

theorem eq_semicolon_of_ofCode {c : Char} (h : Role.ofCode c = .terminator) : c = ';' := by
  by_contra hc
  rw [Role.ofCode, if_neg hc] at h
  split at h <;> cases h

/-- Only semicolons are terminators. -/
theorem eq_semicolon_of_mem_scan (mode : Mode) (cs : List Char) :
    ∀ p ∈ scan mode cs, p.2 = .terminator → p.1 = ';' := by
  fun_induction scan mode cs with
  | case1 => simp
  | case4 c rest line block ih => exact List.forall_mem_cons.2 ⟨eq_semicolon_of_ofCode, ih⟩
  | case2 _ ih | case3 _ ih | case5 _ _ _ ih | case6 _ _ _ _ ih | case7 _ ih | case8 _ _ _ ih
  | case9 _ ih | case10 _ _ _ ih => simpa using ih

/-- A script that is continued behind a semicolon of code has the statements of its front and then
those of what follows. -/
theorem statementChars_append {front : List Char} (h : modeAfter .code front = .code)
    (rest : List Char) :
    statementChars (front ++ ';' :: rest) = statementChars front ++ statementChars rest := by
  rw [statementChars, scan_append_terminator h, cut_append_terminator, List.map_append,
    List.filter_append]
  rfl

/-- A text that ends where the last stop would be is one stretch. -/
theorem extract_behind (before piece : List Char) :
    textsBetween (String.ofList (before ++ piece)) (utf8Len before) [] = [String.ofList piece] := by
  have hextract := String.extract_of_valid before piece []
  rw [List.append_nil] at hextract
  rw [textsBetween, String.rawEndPos_ofList, String.utf8Len_append, hextract]

/-- The texts between the terminators are what the script is cut into. -/
theorem textsBetween_of_cut {marked : List (Char × Role)} {first : List Char}
    {others : List (List Char)} (hcut : cut marked = first :: others)
    (hmarked : ∀ p ∈ marked, p.2 = .terminator → p.1 = ';') (before piece : List Char) :
    textsBetween (String.ofList (before ++ piece ++ marked.map Prod.fst)) (utf8Len before)
        (terminatorOffsets (utf8Len (before ++ piece)) marked) =
      String.ofList (piece ++ first) :: others.map String.ofList := by
  induction marked generalizing first others before piece with
  | nil =>
    cases hcut
    rw [List.map_nil, List.append_nil, List.append_nil, List.map_nil]
    exact extract_behind before piece
  | cons p rest ih =>
    obtain ⟨c, role⟩ := p
    have hrest : ∀ p ∈ rest, p.2 = .terminator → p.1 = ';' :=
      fun p hp => hmarked p (List.mem_cons_of_mem _ hp)
    obtain ⟨next, pieces, hnext⟩ := List.exists_cons_of_ne_nil (cut_ne_nil rest)
    by_cases hrole : role = .terminator
    · obtain rfl : c = ';' := hmarked _ List.mem_cons_self hrole
      rw [cut, if_pos hrole, hnext] at hcut
      cases hcut
      have hhead := String.extract_of_valid before piece (';' :: rest.map Prod.fst)
      have htail := ih hnext hrest (before ++ piece ++ [';']) []
      have hstop : utf8Len (before ++ piece ++ [';']) = utf8Len (before ++ piece) + 1 := by
        rw [String.utf8Len_append _ [';']]
        rfl
      rw [List.append_nil, hstop, List.append_assoc _ [';']] at htail
      rw [← String.utf8Len_append] at hhead
      rw [terminatorOffsets, if_pos hrole, textsBetween, List.map_cons, hhead, List.append_nil]
      exact congrArg _ htail
    · rw [cut, if_neg hrole, hnext] at hcut
      cases hcut
      have htail := ih hnext hrest before (piece ++ [c])
      have hstop : utf8Len (before ++ (piece ++ [c])) = utf8Len (before ++ piece) + c.utf8Size := by
        rw [← List.append_assoc, String.utf8Len_append _ [c]]
        simp
      rw [hstop, ← List.append_assoc, List.append_assoc _ [c], List.append_assoc piece] at htail
      rw [terminatorOffsets, if_neg hrole]
      exact htail

/-- The statements are the trimmed texts between the terminators, without the empty ones. -/
theorem statements_eq (script : String) :
    statements script =
      ((textsBetween script 0 (terminatorOffsets 0 (scan .code script.toList))).map
        Text.trim).filter (· ≠ "") := by
  obtain ⟨first, others, hcut⟩ := List.exists_cons_of_ne_nil (cut_ne_nil (scan .code script.toList))
  have htexts := textsBetween_of_cut hcut (eq_semicolon_of_mem_scan _ _) [] []
  have hwhole : textsBetween script 0 (terminatorOffsets 0 (scan .code script.toList)) =
      (cut (scan .code script.toList)).map String.ofList := by
    rw [hcut]
    simpa [map_fst_scan] using htexts
  have htrim : Text.trim ∘ String.ofList = String.ofList ∘ Text.trimChars := by
    funext cs
    simp [Text.trim]
  have hempty : (fun cs : List Char => !cs.isEmpty) = (decide <| · ≠ "") ∘ String.ofList := by
    funext cs
    cases cs <;> simp
  rw [hwhole, List.map_map, htrim, ← List.map_map, List.filter_map, ← hempty]
  rfl

section Offsets

variable {marked : List (Char × Role)}

theorem terminatorOffsets_append (offset : Nat) (marked' : List (Char × Role)) :
    terminatorOffsets offset (marked ++ marked') = terminatorOffsets offset marked ++
      terminatorOffsets (offset + utf8Len (marked.map Prod.fst)) marked' := by
  induction marked generalizing offset with
  | nil => rfl
  | cons p rest ih =>
    obtain ⟨c, role⟩ := p
    have hlen : offset + utf8Len (((c, role) :: rest).map Prod.fst) =
        offset + c.utf8Size + utf8Len (rest.map Prod.fst) := by
      rw [List.map_cons, String.utf8Len_cons, Nat.add_assoc, Nat.add_comm c.utf8Size]
    rw [List.cons_append, terminatorOffsets, terminatorOffsets, ih, hlen]
    split <;> rfl

theorem terminatorOffsets_of_within (h : ∀ p ∈ marked, Within p.2) (offset : Nat) :
    terminatorOffsets offset marked = [] := by
  induction marked generalizing offset with
  | nil => rfl
  | cons p rest ih =>
    obtain ⟨hrole, hrest⟩ := List.forall_mem_cons.1 h
    rw [terminatorOffsets, if_neg hrole]
    exact ih hrest _

end Offsets

/-- What the pass goes by without a terminator only moves the offsets of the others. -/
theorem terminatorOffsets_of_passes {mode : Mode} {cs front after : List Char}
    (h : Passes Within mode cs after) (hcs : cs = front ++ after) (offset : Nat) :
    terminatorOffsets offset (scan mode cs) =
      terminatorOffsets (offset + utf8Len front) (scan .code after) := by
  obtain ⟨marked, hscan, hwithin⟩ := h
  have hfront : marked.map Prod.fst = front := by
    have hmap := map_fst_scan mode cs
    rw [hscan, List.map_append, map_fst_scan, hcs] at hmap
    exact List.append_cancel_right hmap
  rw [hscan, terminatorOffsets_append, terminatorOffsets_of_within hwithin, hfront,
    List.nil_append]

/-- Every name that stands between grave accents among some tokens is inert. -/
def NamesInert (tokens : List Token) : Prop :=
  ∀ token ∈ tokens, token.lexeme.head? = some '\x60' → Inert token.lexeme.tail.dropLast

instance (tokens : List Token) : Decidable (NamesInert tokens) :=
  inferInstanceAs (Decidable (∀ token ∈ tokens, _ → _))

/-- A semicolon is a terminator, and in any other token there is none. -/
theorem terminatorOffsets_of_token {c : Char} {tail lexeme after : List Char} {kind : TokenKind}
    (hopens : ¬ OpensComment c tail) (hread : readKind? c tail = some (kind, after))
    (hlexeme : c :: tail = lexeme ++ after)
    (hname : c = '\x60' → ∀ name, tail = name ++ '\x60' :: after → Inert name) (offset : Nat) :
    terminatorOffsets offset (scan .code (c :: tail)) =
      (if kind = .mark .semicolon then [offset] else []) ++
        terminatorOffsets (offset + utf8Len lexeme) (scan .code after) := by
  by_cases hkind : kind = .mark .semicolon
  · rw [hkind] at hread
    obtain ⟨rfl, rfl⟩ := readKind?_semicolon hread
    obtain rfl : [';'] = lexeme := List.append_cancel_right hlexeme
    rw [if_pos hkind, scan_code hopens]
    rfl
  · rw [if_neg hkind, List.nil_append]
    exact terminatorOffsets_of_passes (passes_token hopens hread hkind hname) hlexeme offset

theorem semicolons_cons (token : Token) (tokens : List Token) :
    semicolons (token :: tokens) =
      (if token.kind = .mark .semicolon then [token.start.offset] else []) ++
        semicolons tokens := by
  by_cases hkind : token.kind = .mark .semicolon
  · simp [semicolons, hkind]
  · simp [semicolons, hkind]

/-- The terminators of a text are the semicolons among its tokens. -/
theorem terminatorOffsets_of_cuts {place : Position} {cs : List Char} {tokens : List Token}
    (h : Cuts place cs tokens) (hnames : NamesInert tokens) :
    terminatorOffsets place.offset (scan .code cs) = semicolons tokens := by
  induction h with
  | @none place cs hgap =>
    have hskip : Passes Within .code cs [] := hgap ▸ passes_skipGap .blanks cs
    rw [terminatorOffsets_of_passes hskip (List.append_nil cs).symm, scan_nil]
    rfl
  | @token place cs gap tail lexeme after c kind tokens hgap hcs hread hlexeme rest ih =>
    obtain ⟨hnames, hrest⟩ := List.forall_mem_cons.1 hnames
    have hskip : Passes Within .code cs (c :: tail) := hgap ▸ passes_skipGap .blanks cs
    have hkind : readKind? c tail = some (kind, after) := by
      rw [← toOption_readToken, hread]
      rfl
    have hname : c = '\x60' → ∀ name, tail = name ++ '\x60' :: after → Inert name := by
      rintro rfl name htail
      have hwritten : lexeme = '\x60' :: name ++ ['\x60'] := by
        refine List.append_cancel_right (hlexeme.symm.trans ?_)
        simp [htail]
      rw [hwritten] at hnames
      simpa using hnames rfl
    rw [terminatorOffsets_of_passes hskip hcs, ← offset_advance,
      terminatorOffsets_of_token (not_opensComment_of_skipGap hgap) hkind hlexeme hname,
      ← offset_advance, ih hrest, semicolons_cons]

/-- A script that can be cut into tokens is cut into statements at the semicolons among them, unless
a name between grave accents holds something else than a name. -/
theorem statements_eq_between_semicolons (script : String) (list : TokenList)
    (htokens : tokens script = .ok list) (hnames : NamesInert list.tokens) :
    terminatorOffsets 0 (scan .code script.toList) = semicolons list.tokens ∧
      statements script =
        ((textsBetween script 0 (semicolons list.tokens)).map Text.trim).filter (· ≠ "") := by
  have hoffsets : terminatorOffsets 0 (scan .code script.toList) = semicolons list.tokens :=
    terminatorOffsets_of_cuts (cuts_of_tokensFrom htokens) hnames
  exact ⟨hoffsets, hoffsets ▸ statements_eq script⟩

/-- Semicolons stand in a string, in two comments and by themselves, and a name with a space stands
between grave accents. -/
theorem statements_eq_between_semicolons_mixed :
    ∃ list,
      tokens "SELECT \x60a b\x60, 'é;''' FROM t; -- c;\n; /* d; */ DELETE FROM t" = .ok list ∧
      NamesInert list.tokens ∧ semicolons list.tokens = [28, 36] ∧
      statements "SELECT \x60a b\x60, 'é;''' FROM t; -- c;\n; /* d; */ DELETE FROM t" =
        ["SELECT \x60a b\x60, 'é;''' FROM t", "-- c;", "/* d; */ DELETE FROM t"] := by
  have hread :
      (tokens "SELECT \x60a b\x60, 'é;''' FROM t; -- c;\n; /* d; */ DELETE FROM t").toOption.map
        (fun list => (decide (NamesInert list.tokens), semicolons list.tokens)) =
          some (true, [28, 36]) := by
    decide +kernel
  obtain ⟨list, htokens, hlist⟩ := exists_ok_of_map hread
  obtain ⟨hnames, hsemicolons⟩ := Prod.mk.inj hlist
  have hinert := of_decide_eq_true hnames
  refine ⟨list, htokens, hinert, hsemicolons, ?_⟩
  rw [(statements_eq_between_semicolons _ list htokens hinert).2, hsemicolons]
  decide +kernel

/-- A semicolon in a name between grave accents is no token, and yet the script is cut there. -/
theorem statements_cut_in_name :
    ¬ ∀ (script : String) (list : TokenList), tokens script = .ok list →
      statements script =
        ((textsBetween script 0 (semicolons list.tokens)).map Text.trim).filter (· ≠ "") := by
  intro hall
  have hsemicolons : (tokens "SELECT \x60a;b\x60 FROM t").toOption.map (semicolons ·.tokens) =
      some [] := by
    decide +kernel
  obtain ⟨list, htokens, hnone⟩ := exists_ok_of_map hsemicolons
  have hcut := hall _ list htokens
  rw [hnone] at hcut
  revert hcut
  decide +kernel

end SqlEngine.Script
