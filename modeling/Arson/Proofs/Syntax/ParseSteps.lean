import Arson.Syntax.Parser
/-!
# What each parsing function does, one branch at a time

One lemma for each way a parsing function can succeed, stated through the results of the
functions it calls. A proof about parsing a particular token list then puts these together and
never unfolds the parser itself. Results are compared through `plain`, which forgets the proof
that the rest of the tokens is shorter.
-/
namespace Arson.Syntax.Reader

/-- A parse's result with the rest of the tokens as a plain reader. -/
def plain {α : Type} {P : Reader → Prop} (res : Except ParseError (α × {s : Reader // P s})) :
    Except ParseError (α × Reader) :=
  res.map fun p => (p.1, p.2.1)

theorem plain_eq_ok {α : Type} {P : Reader → Prop} {res : Except ParseError (α × {s : Reader // P s})}
    {a : α} {s : Reader} : plain res = .ok (a, s) ↔ ∃ h, res = .ok (a, ⟨s, h⟩) := by
  constructor
  · intro h
    rcases res with e | ⟨b, s', hs'⟩
    · cases h
    · cases h
      exact ⟨hs', rfl⟩
  · rintro ⟨h, rfl⟩
    rfl

variable {t c n : Token} {toks rest : List Token} {L L' : Nat} {s s' : Reader}

@[simp] theorem kind_cons : (⟨t :: toks, L⟩ : Reader).kind = t.kind := rfl

@[simp] theorem peek_cons : (⟨t :: toks, L⟩ : Reader).peek = t := rfl

theorem eat_cons {k : TokenKind} (hk : t.kind = k) (hne : k ≠ .eof) :
    (⟨t :: toks, L⟩ : Reader).eat k = .ok (t, ⟨⟨toks, t.line⟩, Nat.lt_succ_self _⟩) := by
  simp [eat, hk, hne]

/-! ## Primaries -/

theorem primary_ident (hk : t.kind = .identifier) :
    plain (⟨t :: toks, L⟩ : Reader).primary = .ok (.ident t.text, ⟨toks, t.line⟩) := by
  simp only [primary, peek_cons, hk, eat_cons hk (by simp)]
  rfl

theorem primary_number {x : Float} (hk : t.kind = .number) (hx : t.literal = .number x) :
    plain (⟨t :: toks, L⟩ : Reader).primary = .ok (.number x, ⟨toks, t.line⟩) := by
  simp only [primary, peek_cons, hk, eat_cons hk (by simp), hx]
  rfl

theorem primary_string (hk : t.kind = .string) :
    plain (⟨t :: toks, L⟩ : Reader).primary = .ok (.str t.text, ⟨toks, t.line⟩) := by
  simp only [primary, peek_cons, hk, eat_cons hk (by simp)]
  rfl

theorem primary_true (hk : t.kind = .keyword .trueKw) :
    plain (⟨t :: toks, L⟩ : Reader).primary = .ok (.bool true, ⟨toks, t.line⟩) := by
  simp only [primary, peek_cons, hk, eat_cons hk (by simp)]
  rfl

theorem primary_false (hk : t.kind = .keyword .falseKw) :
    plain (⟨t :: toks, L⟩ : Reader).primary = .ok (.bool false, ⟨toks, t.line⟩) := by
  simp only [primary, peek_cons, hk, eat_cons hk (by simp)]
  rfl

theorem primary_negate {e : Expr} (hk : t.kind = .minus)
    (he : plain (⟨toks, t.line⟩ : Reader).chain = .ok (e, s)) :
    plain (⟨t :: toks, L⟩ : Reader).primary = .ok (.negate e, s) := by
  obtain ⟨h, he⟩ := plain_eq_ok.mp he
  simp only [primary, peek_cons, hk, eat_cons hk (by simp), bind, Except.bind, he]
  rfl

theorem primary_parens {e : Expr} (hk : t.kind = .leftParen)
    (he : plain (⟨toks, t.line⟩ : Reader).expr = .ok (e, ⟨c :: rest, L⟩))
    (hc : c.kind = .rightParen) :
    plain (⟨t :: toks, L'⟩ : Reader).primary = .ok (e, ⟨rest, c.line⟩) := by
  obtain ⟨h, he⟩ := plain_eq_ok.mp he
  simp only [primary, peek_cons, hk, eat_cons hk (by simp), bind, Except.bind, he,
    eat_cons hc (by simp)]
  rfl

theorem primary_array {items : List Expr} (hk : t.kind = .leftBracket)
    (hi : plain ((⟨toks, t.line⟩ : Reader).exprList .rightBracket) = .ok (items, ⟨c :: rest, L⟩))
    (hc : c.kind = .rightBracket) :
    plain (⟨t :: toks, L'⟩ : Reader).primary = .ok (.array items, ⟨rest, c.line⟩) := by
  obtain ⟨h, hi⟩ := plain_eq_ok.mp hi
  simp only [primary, peek_cons, hk, eat_cons hk (by simp), bind, Except.bind, hi,
    eat_cons hc (by simp)]
  rfl

theorem primary_dict {entries : List (String × Expr)} (hk : t.kind = .leftBrace)
    (he : plain ((⟨toks, t.line⟩ : Reader).dictEntries #[]) = .ok (entries, ⟨c :: rest, L⟩))
    (hc : c.kind = .rightBrace) :
    plain (⟨t :: toks, L'⟩ : Reader).primary = .ok (.dict entries, ⟨rest, c.line⟩) := by
  obtain ⟨h, he⟩ := plain_eq_ok.mp he
  simp only [primary, peek_cons, hk, eat_cons hk (by simp), bind, Except.bind, he,
    eat_cons hc (by simp)]
  rfl

theorem primary_lambda {p : Token} {params : List String} {body : List Stmt}
    (hk : t.kind = .keyword .funcKw) (hp : p.kind = .leftParen)
    (hn : plain (⟨toks, p.line⟩ : Reader).nameList = .ok (params, ⟨c :: rest, L⟩))
    (hc : c.kind = .rightParen) (hb : plain (⟨rest, c.line⟩ : Reader).block = .ok (body, s)) :
    plain (⟨t :: p :: toks, L'⟩ : Reader).primary = .ok (.lambda params body, s) := by
  obtain ⟨h, hn⟩ := plain_eq_ok.mp hn
  obtain ⟨h', hb⟩ := plain_eq_ok.mp hb
  simp only [primary, peek_cons, hk, eat_cons hk (by simp), bind, Except.bind,
    eat_cons hp (by simp), hn, eat_cons hc (by simp), hb]
  rfl

/-! ## Chains and links -/

theorem chain_eq {r : Reader} {e : Expr} {ls : List Link}
    (hp : plain r.primary = .ok (e, s)) (hl : plain (s.links #[]) = .ok (ls, s')) :
    plain r.chain = .ok (chainOf e ls, s') := by
  obtain ⟨h, hp⟩ := plain_eq_ok.mp hp
  obtain ⟨h', hl⟩ := plain_eq_ok.mp hl
  simp only [chain, bind, Except.bind, hp, hl]
  rfl

/-- Links end at a token that is not a `.`, and not a `(` or `[` on the line before it. -/
theorem links_stop {r : Reader} {acc : Array Link} (hdot : r.kind ≠ .period)
    (hline : r.kind = .leftParen ∨ r.kind = .leftBracket → r.peek.line ≠ r.lastLine) :
    plain (r.links acc) = .ok (acc.toList, r) := by
  unfold links
  dsimp only
  split
  · rename_i hk
    simp only [hline (.inl hk), if_false]
    rfl
  · rename_i hk
    simp only [hline (.inr hk), if_false]
    rfl
  · contradiction
  · rfl

theorem links_call {args : List Expr} {acc : Array Link} {ls : List Link}
    (hk : t.kind = .leftParen) (hline : t.line = L)
    (hargs : plain ((⟨toks, t.line⟩ : Reader).exprList .rightParen) = .ok (args, ⟨c :: rest, L'⟩))
    (hc : c.kind = .rightParen)
    (hrest : plain ((⟨rest, c.line⟩ : Reader).links (acc.push (.call args))) = .ok (ls, s)) :
    plain ((⟨t :: toks, L⟩ : Reader).links acc) = .ok (ls, s) := by
  obtain ⟨h, hargs⟩ := plain_eq_ok.mp hargs
  obtain ⟨h', hrest⟩ := plain_eq_ok.mp hrest
  subst hline
  rw [links]
  simp only [kind_cons, peek_cons, hk, ↓reduceIte, eat_cons hk (by simp), bind,
    Except.bind, hargs, eat_cons hc (by simp), hrest]
  rfl

theorem links_index {key : Expr} {acc : Array Link} {ls : List Link}
    (hk : t.kind = .leftBracket) (hline : t.line = L)
    (hkey : plain (⟨toks, t.line⟩ : Reader).expr = .ok (key, ⟨c :: rest, L'⟩))
    (hc : c.kind = .rightBracket)
    (hrest : plain ((⟨rest, c.line⟩ : Reader).links (acc.push (.index key))) = .ok (ls, s)) :
    plain ((⟨t :: toks, L⟩ : Reader).links acc) = .ok (ls, s) := by
  obtain ⟨h, hkey⟩ := plain_eq_ok.mp hkey
  obtain ⟨h', hrest⟩ := plain_eq_ok.mp hrest
  subst hline
  rw [links]
  simp only [kind_cons, peek_cons, hk, ↓reduceIte, eat_cons hk (by simp), bind,
    Except.bind, hkey, eat_cons hc (by simp), hrest]
  rfl

theorem links_attr {acc : Array Link} {ls : List Link} (hk : t.kind = .period)
    (hn : n.kind = .identifier)
    (hrest : plain ((⟨toks, n.line⟩ : Reader).links (acc.push (.attr n.text))) = .ok (ls, s)) :
    plain ((⟨t :: n :: toks, L⟩ : Reader).links acc) = .ok (ls, s) := by
  obtain ⟨h, hrest⟩ := plain_eq_ok.mp hrest
  rw [links]
  simp only [kind_cons, hk, eat_cons hk (by simp), bind, Except.bind, eatName,
    eat_cons hn (by simp), pure, Except.pure, hrest]
  rfl

/-! ## Expressions and lists of them -/

theorem expr_of_chain {r : Reader} {a : Expr} (ha : plain r.chain = .ok (a, s))
    (hend : BinaryOp.ofKind? s.kind = none) : plain r.expr = .ok (a, s) := by
  obtain ⟨h, ha⟩ := plain_eq_ok.mp ha
  simp only [expr, ha, bind, Except.bind, hend]
  rfl

theorem expr_binOp {r : Reader} {a b : Expr} {op : BinaryOp}
    (ha : plain r.chain = .ok (a, ⟨t :: toks, L⟩)) (hop : BinaryOp.ofKind? t.kind = some op)
    (hb : plain (⟨toks, t.line⟩ : Reader).expr = .ok (b, s)) :
    plain r.expr = .ok (.binOp a op b, s) := by
  obtain ⟨h, ha⟩ := plain_eq_ok.mp ha
  obtain ⟨h', hb⟩ := plain_eq_ok.mp hb
  have hne : t.kind ≠ .eof := by
    intro h
    rw [h] at hop
    cases hop
  simp only [expr, ha, bind, Except.bind, kind_cons, hop, eat_cons rfl hne, hb]
  rfl

theorem exprList_closing {r : Reader} {closing : TokenKind} (hk : r.kind = closing) :
    plain (r.exprList closing) = .ok ([], r) := by
  simp only [exprList, hk, if_true]
  rfl

theorem exprList_cons {r : Reader} {closing : TokenKind} {e : Expr} {es : List Expr}
    (hk : r.kind ≠ closing) (he : plain r.expr = .ok (e, s))
    (ht : plain (s.exprListTail #[e]) = .ok (es, s')) :
    plain (r.exprList closing) = .ok (es, s') := by
  obtain ⟨h, he⟩ := plain_eq_ok.mp he
  obtain ⟨h', ht⟩ := plain_eq_ok.mp ht
  simp only [exprList, hk, if_false, bind, Except.bind, he, ht]
  rfl

theorem exprListTail_stop {r : Reader} {acc : Array Expr} (hk : r.kind ≠ .comma) :
    plain (r.exprListTail acc) = .ok (acc.toList, r) := by
  rw [exprListTail]
  simp only [hk, if_false]
  rfl

theorem exprListTail_cons {acc : Array Expr} {e : Expr} {es : List Expr}
    (hk : t.kind = .comma) (he : plain (⟨toks, t.line⟩ : Reader).expr = .ok (e, s))
    (ht : plain (s.exprListTail (acc.push e)) = .ok (es, s')) :
    plain ((⟨t :: toks, L⟩ : Reader).exprListTail acc) = .ok (es, s') := by
  obtain ⟨h, he⟩ := plain_eq_ok.mp he
  obtain ⟨h', ht⟩ := plain_eq_ok.mp ht
  rw [exprListTail]
  simp only [kind_cons, hk, if_true, eat_cons hk (by simp), bind, Except.bind,
    he, ht]
  rfl

theorem dictEntries_close {r : Reader} {acc : Array (String × Expr)} (hk : r.kind = .rightBrace) :
    plain (r.dictEntries acc) = .ok (acc.toList, r) := by
  rw [dictEntries]
  simp only [hk, if_true]
  rfl

theorem dictEntries_last {acc : Array (String × Expr)} {v : Expr}
    (hk : t.kind = .string) (hc : c.kind = .colon)
    (hv : plain (⟨toks, c.line⟩ : Reader).expr = .ok (v, s)) (hend : s.kind = .rightBrace) :
    plain ((⟨t :: c :: toks, L⟩ : Reader).dictEntries acc) =
      .ok ((acc.push (t.text, v)).toList, s) := by
  obtain ⟨h, hv⟩ := plain_eq_ok.mp hv
  rw [dictEntries]
  simp only [kind_cons, hk, reduceCtorEq, if_false, eat_cons hk (by simp), bind,
    Except.bind, eat_cons hc (by simp), hv, hend, if_true]
  rfl

theorem dictEntries_more {acc : Array (String × Expr)} {v : Expr} {es : List (String × Expr)}
    {q : Token} (hk : t.kind = .string) (hc : c.kind = .colon)
    (hv : plain (⟨toks, c.line⟩ : Reader).expr = .ok (v, ⟨q :: rest, L'⟩)) (hq : q.kind = .comma)
    (hrest : plain ((⟨rest, q.line⟩ : Reader).dictEntries (acc.push (t.text, v))) = .ok (es, s)) :
    plain ((⟨t :: c :: toks, L⟩ : Reader).dictEntries acc) = .ok (es, s) := by
  obtain ⟨h, hv⟩ := plain_eq_ok.mp hv
  obtain ⟨h', hrest⟩ := plain_eq_ok.mp hrest
  rw [dictEntries]
  simp only [kind_cons, hk, reduceCtorEq, if_false, eat_cons hk (by simp), bind,
    Except.bind, eat_cons hc (by simp), hv, hq, eat_cons hq (by simp), hrest]
  rfl

/-! ## Names -/

theorem nameList_empty {r : Reader} (hk : r.kind ≠ .identifier) :
    plain r.nameList = .ok ([], r) := by
  simp only [nameList, hk, if_false]
  rfl

theorem nameList_cons {ns : List String} (hk : t.kind = .identifier)
    (ht : plain ((⟨toks, t.line⟩ : Reader).nameListTail #[t.text]) = .ok (ns, s)) :
    plain (⟨t :: toks, L⟩ : Reader).nameList = .ok (ns, s) := by
  obtain ⟨h, ht⟩ := plain_eq_ok.mp ht
  simp only [nameList, kind_cons, hk, if_true, eatName, eat_cons hk (by simp), bind,
    Except.bind, pure, Except.pure, ht]
  rfl

theorem nameListTail_stop {r : Reader} {acc : Array String} (hk : r.kind ≠ .comma) :
    plain (r.nameListTail acc) = .ok (acc.toList, r) := by
  rw [nameListTail]
  simp only [hk, if_false]
  rfl

theorem nameListTail_cons {acc : Array String} {ns : List String} (hk : t.kind = .comma)
    (hn : n.kind = .identifier)
    (ht : plain ((⟨toks, n.line⟩ : Reader).nameListTail (acc.push n.text)) = .ok (ns, s)) :
    plain ((⟨t :: n :: toks, L⟩ : Reader).nameListTail acc) = .ok (ns, s) := by
  obtain ⟨h, ht⟩ := plain_eq_ok.mp ht
  rw [nameListTail]
  simp only [kind_cons, hk, if_true, eat_cons hk (by simp), eatName, eat_cons hn (by simp),
    bind, Except.bind, pure, Except.pure, ht]
  rfl

/-! ## Blocks and statements -/

theorem block_eq {body : List Stmt} (hk : t.kind = .leftBrace)
    (hb : plain ((⟨toks, t.line⟩ : Reader).stmtsUntilBrace #[]) = .ok (body, ⟨c :: rest, L'⟩))
    (hc : c.kind = .rightBrace) :
    plain (⟨t :: toks, L⟩ : Reader).block = .ok (body, ⟨rest, c.line⟩) := by
  obtain ⟨h, hb⟩ := plain_eq_ok.mp hb
  simp only [block, eat_cons hk (by simp), bind, Except.bind, hb, eat_cons hc (by simp)]
  rfl

theorem stmtsUntilBrace_stop {r : Reader} {acc : Array Stmt}
    (hk : r.kind = .rightBrace ∨ r.kind = .eof) :
    plain (r.stmtsUntilBrace acc) = .ok (acc.toList, r) := by
  rw [stmtsUntilBrace]
  simp only [hk, if_true]
  rfl

theorem stmtsUntilBrace_cons {r : Reader} {acc : Array Stmt} {st : Stmt} {ss : List Stmt}
    (hbrace : r.kind ≠ .rightBrace) (heof : r.kind ≠ .eof) (hs : plain r.stmt = .ok (st, s))
    (hrest : plain (s.stmtsUntilBrace (acc.push st)) = .ok (ss, s')) :
    plain (r.stmtsUntilBrace acc) = .ok (ss, s') := by
  obtain ⟨h, hs⟩ := plain_eq_ok.mp hs
  obtain ⟨h', hrest⟩ := plain_eq_ok.mp hrest
  rw [stmtsUntilBrace]
  simp only [hbrace, heof, or_self, if_false, bind, Except.bind, hs, hrest]
  rfl

theorem elifs_stop {r : Reader} {acc : Array Branch} (helif : r.kind ≠ .keyword .elifKw)
    (helse : r.kind ≠ .keyword .elseKw) : plain (r.elifs acc) = .ok (acc.toList, r) := by
  rw [elifs]
  split
  · contradiction
  · contradiction
  · rfl

theorem elifs_elif {acc : Array Branch} {test : Expr} {body : List Stmt} {bs : List Branch}
    {s'' : Reader} (hk : t.kind = .keyword .elifKw)
    (ht : plain (⟨toks, t.line⟩ : Reader).expr = .ok (test, s))
    (hb : plain s.block = .ok (body, s'))
    (hrest : plain (s'.elifs (acc.push (.elif test body))) = .ok (bs, s'')) :
    plain ((⟨t :: toks, L⟩ : Reader).elifs acc) = .ok (bs, s'') := by
  obtain ⟨h, ht⟩ := plain_eq_ok.mp ht
  obtain ⟨h', hb⟩ := plain_eq_ok.mp hb
  obtain ⟨h'', hrest⟩ := plain_eq_ok.mp hrest
  rw [elifs]
  simp only [kind_cons, hk, eat_cons hk (by simp), bind, Except.bind, ht, hb, hrest]
  rfl

theorem elifs_else {acc : Array Branch} {body : List Stmt} (hk : t.kind = .keyword .elseKw)
    (hb : plain (⟨toks, t.line⟩ : Reader).block = .ok (body, s)) :
    plain ((⟨t :: toks, L⟩ : Reader).elifs acc) = .ok ((acc.push (.otherwise body)).toList, s) := by
  obtain ⟨h, hb⟩ := plain_eq_ok.mp hb
  rw [elifs]
  simp only [kind_cons, hk, eat_cons hk (by simp), bind, Except.bind, hb]
  rfl

theorem stmt_var {q : Token} {e : Expr} (hk : t.kind = .keyword .varKw)
    (hn : n.kind = .identifier) (hq : q.kind = .equal)
    (he : plain (⟨toks, q.line⟩ : Reader).expr = .ok (e, s)) :
    plain (⟨t :: n :: q :: toks, L⟩ : Reader).stmt = .ok (.var n.text e, s) := by
  obtain ⟨h, he⟩ := plain_eq_ok.mp he
  simp only [stmt, kind_cons, hk, eat_cons hk (by simp), bind, Except.bind, eatName,
    eat_cons hn (by simp), pure, Except.pure, eat_cons hq (by simp), he]
  rfl

theorem stmt_func {p : Token} {params : List String} {body : List Stmt}
    (hk : t.kind = .keyword .funcKw) (hn : n.kind = .identifier) (hp : p.kind = .leftParen)
    (hnames : plain (⟨toks, p.line⟩ : Reader).nameList = .ok (params, ⟨c :: rest, L'⟩))
    (hc : c.kind = .rightParen) (hb : plain (⟨rest, c.line⟩ : Reader).block = .ok (body, s)) :
    plain (⟨t :: n :: p :: toks, L⟩ : Reader).stmt = .ok (.func n.text params body, s) := by
  obtain ⟨h, hnames⟩ := plain_eq_ok.mp hnames
  obtain ⟨h', hb⟩ := plain_eq_ok.mp hb
  simp only [stmt, kind_cons, hk, nextKind, hn, if_true, eat_cons hk (by simp), bind,
    Except.bind, eatName, eat_cons hn (by simp), pure, Except.pure, eat_cons hp (by simp),
    hnames, eat_cons hc (by simp), hb]
  rfl

theorem stmt_ret {e : Expr} (hk : t.kind = .keyword .returnKw)
    (he : plain (⟨toks, t.line⟩ : Reader).expr = .ok (e, s)) :
    plain (⟨t :: toks, L⟩ : Reader).stmt = .ok (.ret e, s) := by
  obtain ⟨h, he⟩ := plain_eq_ok.mp he
  simp only [stmt, kind_cons, hk, eat_cons hk (by simp), bind, Except.bind, he]
  rfl

theorem stmt_if {test : Expr} {body : List Stmt} {bs : List Branch} {s'' : Reader}
    (hk : t.kind = .keyword .ifKw) (ht : plain (⟨toks, t.line⟩ : Reader).expr = .ok (test, s))
    (hb : plain s.block = .ok (body, s')) (hbs : plain (s'.elifs #[]) = .ok (bs, s'')) :
    plain (⟨t :: toks, L⟩ : Reader).stmt = .ok (.ifElse test body bs, s'') := by
  obtain ⟨h, ht⟩ := plain_eq_ok.mp ht
  obtain ⟨h', hb⟩ := plain_eq_ok.mp hb
  obtain ⟨h'', hbs⟩ := plain_eq_ok.mp hbs
  simp only [stmt, kind_cons, hk, eat_cons hk (by simp), bind, Except.bind, ht, hb, hbs]
  rfl

theorem stmt_while {test : Expr} {body : List Stmt} (hk : t.kind = .keyword .whileKw)
    (ht : plain (⟨toks, t.line⟩ : Reader).expr = .ok (test, s))
    (hb : plain s.block = .ok (body, s')) :
    plain (⟨t :: toks, L⟩ : Reader).stmt = .ok (.whileLoop test body, s') := by
  obtain ⟨h, ht⟩ := plain_eq_ok.mp ht
  obtain ⟨h', hb⟩ := plain_eq_ok.mp hb
  simp only [stmt, kind_cons, hk, eat_cons hk (by simp), bind, Except.bind, ht, hb]
  rfl

theorem stmt_for {g p : Token} {a b : Expr} {body : List Stmt} (hk : t.kind = .keyword .forKw)
    (hn : n.kind = .identifier) (hg : g.kind = .keyword .rangeKw) (hp : p.kind = .leftParen)
    (hbounds : plain ((⟨toks, p.line⟩ : Reader).exprList .rightParen) =
      .ok ([a, b], ⟨c :: rest, L'⟩))
    (hc : c.kind = .rightParen) (hb : plain (⟨rest, c.line⟩ : Reader).block = .ok (body, s)) :
    plain (⟨t :: n :: g :: p :: toks, L⟩ : Reader).stmt = .ok (.forRange n.text a b body, s) := by
  obtain ⟨h, hbounds⟩ := plain_eq_ok.mp hbounds
  obtain ⟨h', hb⟩ := plain_eq_ok.mp hb
  simp only [stmt, kind_cons, hk, eat_cons hk (by simp), bind, Except.bind, eatName,
    eat_cons hn (by simp), pure, Except.pure, eat_cons hg (by simp), eat_cons hp (by simp),
    hbounds, eat_cons hc (by simp), hb]
  rfl

/-- A statement that does not open with a statement keyword is an expression; a function
keyword opens one too when no name follows it. -/
theorem stmt_expr {r : Reader} {e : Expr}
    (hk : r.kind ∉ [.keyword .varKw, .keyword .returnKw, .keyword .ifKw, .keyword .whileKw,
      .keyword .forKw])
    (hfunc : r.kind = .keyword .funcKw → r.nextKind ≠ .identifier)
    (he : plain r.expr = .ok (e, s)) : plain r.stmt = .ok (.expr e, s) := by
  obtain ⟨h, he⟩ := plain_eq_ok.mp he
  unfold stmt
  split
  · rename_i hv
    simp [hv] at hk
  · rename_i hv
    simp only [hfunc hv, if_false, bind, Except.bind, he]
    rfl
  · rename_i hv
    simp [hv] at hk
  · rename_i hv
    simp [hv] at hk
  · rename_i hv
    simp [hv] at hk
  · rename_i hv
    simp [hv] at hk
  · simp only [bind, Except.bind, he]
    rfl

theorem stmtsToEnd_stop {r : Reader} {acc : Array Stmt} (hk : r.kind = .eof) :
    r.stmtsToEnd acc = .ok acc.toList := by
  rw [stmtsToEnd]
  simp only [hk, if_true]
  rfl

theorem stmtsToEnd_cons {r : Reader} {acc : Array Stmt} {st : Stmt} (hk : r.kind ≠ .eof)
    (hs : plain r.stmt = .ok (st, s)) : r.stmtsToEnd acc = s.stmtsToEnd (acc.push st) := by
  obtain ⟨h, hs⟩ := plain_eq_ok.mp hs
  rw [stmtsToEnd]
  simp only [hk, if_false, bind, Except.bind, hs]

end Arson.Syntax.Reader
