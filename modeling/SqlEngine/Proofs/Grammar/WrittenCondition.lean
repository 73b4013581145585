import SqlEngine.Grammar.Condition
import SqlEngine.Proofs.Grammar.Reads
import SqlEngine.Proofs.Grammar.Writable

/-!
# Tokens that write a condition

A condition is written with brackets around those parts of AND and OR and those operands of NOT that
are themselves made with AND, OR or NOT, and without brackets around itself. The expressions in it
are written as expressions are. A condition is recognized when it is made of the known forms over
expressions that can be read, and every recognized condition can be written.
-/
namespace SqlEngine.Grammar

/-- The tokens write a condition in one of the known forms. -/
inductive AtomWritten : Condition → List Token → Prop where
  | isNull {subject : Expr} {negated : Bool} {i n : Token} {ss ns : List Token}
      (hsubject : (Phrase.expr subject).Written ss) (hi : i.kind = .keyword .IS)
      (hns : Optionally .NOT negated ns) (hn : n.kind = .keyword .NULL) :
      AtomWritten (.isNull subject negated) (ss ++ i :: ns ++ [n])
  | between {subject low high : Expr} {negated : Bool} {b a : Token} {ss ns ls hs : List Token}
      (hsubject : (Phrase.expr subject).Written ss) (hns : Optionally .NOT negated ns)
      (hb : b.kind = .keyword .BETWEEN) (hlow : (Phrase.expr low).Written ls)
      (ha : a.kind = .keyword .AND) (hhigh : (Phrase.expr high).Written hs) :
      AtomWritten (.between subject low high negated) (ss ++ ns ++ b :: ls ++ a :: hs)
  | oneOf {subject : Expr} {items : List Expr} {negated : Bool} {i l r : Token}
      {ss ns is : List Token} (hsubject : (Phrase.expr subject).Written ss)
      (hns : Optionally .NOT negated ns) (hi : i.kind = .keyword .IN)
      (hl : l.kind = .mark .leftParen) (hitems : (Phrase.items items).Written is)
      (hr : r.kind = .mark .rightParen) :
      AtomWritten (.oneOf subject items negated) (ss ++ ns ++ i :: l :: is ++ [r])
  | like {subject pattern : Expr} {negated : Bool} {k : Token} {ss ns ps : List Token}
      (hsubject : (Phrase.expr subject).Written ss) (hns : Optionally .NOT negated ns)
      (hk : k.kind = .keyword .LIKE) (hpattern : (Phrase.expr pattern).Written ps) :
      AtomWritten (.like subject pattern negated) (ss ++ ns ++ k :: ps)
  | compare {op : Comparison} {left right : Expr} {o : Token} {ls rs : List Token}
      (hleft : (Phrase.expr left).Written ls) (ho : comparison? o.kind = some op)
      (hright : (Phrase.expr right).Written rs) :
      AtomWritten (.compare op left right) (ls ++ o :: rs)

/-- A condition that is made with AND, OR or NOT. -/
def isCompound : Condition → Bool
  | .disjunction _ | .conjunction _ | .negation _ => true
  | _ => false

/-- A part of a text that tokens can write: a whole condition, a part of a longer one, or several
such parts with the same word between them. -/
inductive Clause where
  | whole (c : Condition)
  | operand (c : Condition)
  | operands (word : Keyword) (cs : List Condition)

/-- The tokens write the clause. -/
inductive Clause.Written : Clause → List Token → Prop where
  | atom {c : Condition} {ts : List Token} (hc : AtomWritten c ts) : Written (.whole c) ts
  | negation {t : Token} {c : Condition} {ts : List Token} (ht : t.kind = .keyword .NOT)
      (hc : Written (.operand c) ts) : Written (.whole (.negation c)) (t :: ts)
  | conjunction {cs : List Condition} {ts : List Token} (hlen : 2 ≤ cs.length)
      (hcs : Written (.operands .AND cs) ts) : Written (.whole (.conjunction cs)) ts
  | disjunction {cs : List Condition} {ts : List Token} (hlen : 2 ≤ cs.length)
      (hcs : Written (.operands .OR cs) ts) : Written (.whole (.disjunction cs)) ts
  | bare {c : Condition} {ts : List Token} (hc : AtomWritten c ts) : Written (.operand c) ts
  | bracketed {l r : Token} {c : Condition} {ts : List Token} (hcompound : isCompound c = true)
      (hl : l.kind = .mark .leftParen) (hc : Written (.whole c) ts)
      (hr : r.kind = .mark .rightParen) : Written (.operand c) (l :: ts ++ [r])
  | last {word : Keyword} {c : Condition} {ts : List Token} (hc : Written (.operand c) ts) :
      Written (.operands word [c]) ts
  | more {word : Keyword} {t : Token} {c : Condition} {cs : List Condition} {ts us : List Token}
      (hc : Written (.operand c) ts) (ht : t.kind = .keyword word)
      (hcs : Written (.operands word cs) us) : Written (.operands word (c :: cs)) (ts ++ t :: us)

/-- The expression is read from some tokens. -/
def Returned (e : Expr) : Prop := ∃ ts rest, Reads readExpr ts e rest

/-- The condition is made of the known forms over expressions that are read from some tokens. -/
inductive Recognized : Condition → Prop where
  | isNull {subject : Expr} {negated : Bool} (hsubject : Returned subject) :
      Recognized (.isNull subject negated)
  | between {subject low high : Expr} {negated : Bool} (hsubject : Returned subject)
      (hlow : Returned low) (hhigh : Returned high) :
      Recognized (.between subject low high negated)
  | oneOf {subject : Expr} {items : List Expr} {negated : Bool} (hsubject : Returned subject)
      (hitems : ∀ e ∈ items, Returned e) (hne : items ≠ []) :
      Recognized (.oneOf subject items negated)
  | like {subject pattern : Expr} {negated : Bool} (hsubject : Returned subject)
      (hpattern : Returned pattern) : Recognized (.like subject pattern negated)
  | compare {op : Comparison} {left right : Expr} (hleft : Returned left)
      (hright : Returned right) : Recognized (.compare op left right)
  | negation {c : Condition} (hc : Recognized c) : Recognized (.negation c)
  | conjunction {cs : List Condition} (hlen : 2 ≤ cs.length) (hcs : ∀ c ∈ cs, Recognized c) :
      Recognized (.conjunction cs)
  | disjunction {cs : List Condition} (hlen : 2 ≤ cs.length) (hcs : ∀ c ∈ cs, Recognized c) :
      Recognized (.disjunction cs)

theorem Returned.writable {e : Expr} (h : Returned e) : (Phrase.expr e).Writable := by
  obtain ⟨ts, _, r, hr, -⟩ := h
  exact writable_of_readExprFrom 0 ts hr

/-- A comparison operator is written by a mark. -/
def markOf : Comparison → Mark
  | .eq => .eq | .ne => .ne | .lt => .lt | .gt => .gt | .le => .le | .ge => .ge

theorem comparison?_markOf (op : Comparison) : comparison? (.mark (markOf op)) = some op := by
  cases op <;> rfl

theorem operand_of_compound {c : Condition} {ts : List Token} (hcompound : isCompound c = true)
    (h : (Clause.whole c).Written ts) : ∃ us, (Clause.operand c).Written us :=
  ⟨tokenOf (.mark .leftParen) :: ts ++ [tokenOf (.mark .rightParen)],
    .bracketed hcompound rfl h rfl⟩

/-- What is written as a whole condition can be written as a part, with brackets if need be. -/
theorem operand_of_whole {c : Condition} {ts : List Token} (h : (Clause.whole c).Written ts) :
    ∃ us, (Clause.operand c).Written us := by
  cases h with
  | atom hc => exact ⟨ts, .bare hc⟩
  | negation ht hc => exact operand_of_compound rfl (.negation ht hc)
  | conjunction hlen hcs => exact operand_of_compound rfl (.conjunction hlen hcs)
  | disjunction hlen hcs => exact operand_of_compound rfl (.disjunction hlen hcs)

theorem exists_operands (word : Keyword) {cs : List Condition} (hne : cs ≠ [])
    (hcs : ∀ c ∈ cs, ∃ ts, (Clause.whole c).Written ts) :
    ∃ ts, (Clause.operands word cs).Written ts := by
  induction cs with
  | nil => exact absurd rfl hne
  | cons c rest ih =>
    obtain ⟨_, hwhole⟩ := hcs c List.mem_cons_self
    obtain ⟨ts, hts⟩ := operand_of_whole hwhole
    by_cases hrest : rest = []
    · subst hrest
      exact ⟨ts, .last hts⟩
    · obtain ⟨us, hus⟩ := ih hrest fun d hd => hcs d (List.mem_cons_of_mem c hd)
      exact ⟨ts ++ tokenOf (.keyword word) :: us, .more hts rfl hus⟩

theorem ne_nil_of_two_le {cs : List Condition} (h : 2 ≤ cs.length) : cs ≠ [] := by
  rintro rfl
  simp at h

/-- Every recognized condition is written by some tokens. -/
theorem Recognized.exists_written {c : Condition} (h : Recognized c) :
    ∃ ts, (Clause.whole c).Written ts := by
  induction h with
  | @isNull subject negated hsubject =>
    obtain ⟨ss, hss⟩ := hsubject.writable
    obtain ⟨ns, hns⟩ := exists_optionally .NOT negated
    have hi : (tokenOf (.keyword .IS)).kind = .keyword .IS := rfl
    have hn : (tokenOf (.keyword .NULL)).kind = .keyword .NULL := rfl
    exact ⟨_, .atom (.isNull hss hi hns hn)⟩
  | @between subject low high negated hsubject hlow hhigh =>
    obtain ⟨ss, hss⟩ := hsubject.writable
    obtain ⟨ls, hls⟩ := hlow.writable
    obtain ⟨hs, hhs⟩ := hhigh.writable
    obtain ⟨ns, hns⟩ := exists_optionally .NOT negated
    have hb : (tokenOf (.keyword .BETWEEN)).kind = .keyword .BETWEEN := rfl
    have ha : (tokenOf (.keyword .AND)).kind = .keyword .AND := rfl
    exact ⟨_, .atom (.between hss hns hb hls ha hhs)⟩
  | @oneOf subject items negated hsubject hitems hne =>
    obtain ⟨ss, hss⟩ := hsubject.writable
    obtain ⟨is, his⟩ := writable_items (fun e he => (hitems e he).writable) hne
    obtain ⟨ns, hns⟩ := exists_optionally .NOT negated
    have hi : (tokenOf (.keyword .IN)).kind = .keyword .IN := rfl
    have hl : (tokenOf (.mark .leftParen)).kind = .mark .leftParen := rfl
    have hr : (tokenOf (.mark .rightParen)).kind = .mark .rightParen := rfl
    exact ⟨_, .atom (.oneOf hss hns hi hl his hr)⟩
  | @like subject pattern negated hsubject hpattern =>
    obtain ⟨ss, hss⟩ := hsubject.writable
    obtain ⟨ps, hps⟩ := hpattern.writable
    obtain ⟨ns, hns⟩ := exists_optionally .NOT negated
    have hk : (tokenOf (.keyword .LIKE)).kind = .keyword .LIKE := rfl
    exact ⟨_, .atom (.like hss hns hk hps)⟩
  | @compare op left right hleft hright =>
    obtain ⟨ls, hls⟩ := hleft.writable
    obtain ⟨rs, hrs⟩ := hright.writable
    have ho : comparison? (tokenOf (.mark (markOf op))).kind = some op := comparison?_markOf op
    exact ⟨_, .atom (.compare hls ho hrs)⟩
  | negation _ ih =>
    obtain ⟨_, hwhole⟩ := ih
    obtain ⟨us, hus⟩ := operand_of_whole hwhole
    exact ⟨tokenOf (.keyword .NOT) :: us, .negation rfl hus⟩
  | conjunction hlen _ ih =>
    obtain ⟨ts, hts⟩ := exists_operands .AND (ne_nil_of_two_le hlen) ih
    exact ⟨ts, .conjunction hlen hts⟩
  | disjunction hlen _ ih =>
    obtain ⟨ts, hts⟩ := exists_operands .OR (ne_nil_of_two_le hlen) ih
    exact ⟨ts, .disjunction hlen hts⟩

end SqlEngine.Grammar
