import Arson.Proofs.Syntax.Render
import Arson.Proofs.Syntax.ParseSteps
/-!
# Reading written pieces back

`Reads f ends ps x` says that the parsing function `f`, started on the tokens of `ps` and any
tokens after them that `ends` allows, gives `x` and stops right after `ps`, whatever line `ps` is
written from. The lemmas here build such a fact for each construct `render` writes from the
facts for its parts, one parser branch each, so that the round trip only follows the syntax tree.

What may follow a construct is what keeps the parser from reading on: for a chain no `.`, and no
`(` or `[` on the line of its last token; for an expression also no operator; for a statement
also no `elif` or `else`.
-/
namespace Arson.Syntax

open Reader

namespace Reader

/-- Nothing at the reader's place continues a chain. -/
def EndsChain (r : Reader) : Prop :=
  r.kind ≠ .period ∧ (r.kind = .leftParen ∨ r.kind = .leftBracket → r.peek.line ≠ r.lastLine)

/-- Nothing at the reader's place continues an expression. -/
def EndsExpr (r : Reader) : Prop := r.EndsChain ∧ BinaryOp.ofKind? r.kind = none

/-- Nothing at the reader's place continues a statement. -/
def EndsStmt (r : Reader) : Prop :=
  r.EndsExpr ∧ r.kind ≠ .keyword .elifKw ∧ r.kind ≠ .keyword .elseKw

/-- The reader stands at the end of a block or of the program. -/
def AtClose (r : Reader) : Prop := r.kind = .rightBrace ∨ r.kind = .eof

/-- The reader stands at no further branch of a conditional. -/
def AtNoBranch (r : Reader) : Prop :=
  r.kind ≠ .keyword .elifKw ∧ r.kind ≠ .keyword .elseKw

end Reader

/-- A token kind that ends every expression before it, on whatever line. -/
def TokenKind.closesExpr : TokenKind → Bool
  | .rightParen | .rightBracket | .rightBrace | .leftBrace | .comma | .eof => true
  | _ => false

theorem Reader.endsExpr_of_closes {r : Reader} (h : r.kind.closesExpr) : r.EndsExpr := by
  have spec : r.kind ≠ .period ∧ r.kind ≠ .leftParen ∧ r.kind ≠ .leftBracket ∧
      BinaryOp.ofKind? r.kind = none := by
    cases hk : r.kind <;> rw [hk] at h <;> first | exact ⟨by decide, by decide, by decide, rfl⟩ | cases h
  obtain ⟨hdot, hparen, hbracket, hop⟩ := spec
  exact ⟨⟨hdot, by rintro (h | h) <;> contradiction⟩, hop⟩

theorem Reader.endsChain_of_op {r : Reader} {op : BinaryOp} (h : BinaryOp.ofKind? r.kind = some op) :
    r.EndsChain := by
  refine ⟨fun hk => ?_, fun hk => ?_⟩
  · rw [hk] at h
    cases h
  · rcases hk with hk | hk <;> rw [hk] at h <;> cases h

@[simp] theorem Reader.kind_eq (toks : List Token) (L : Nat) :
    (⟨toks, L⟩ : Reader).kind = (toks.headD (Token.eof 1 1)).kind := rfl

section Reads

variable {α : Type}

/-- A parsing function run on a reader, giving the rest of the tokens as a plain reader. Unlike
`plain (f r)`, it can be rewritten in `r`. -/
def Reader.run {P : Reader → Reader → Prop} (f : (r : Reader) → Except ParseError (α × {s // P r s}))
    (r : Reader) : Except ParseError (α × Reader) :=
  plain (f r)

/-- Reading the tokens of `ps` with `f` gives `x` and leaves the tokens after them, for every
line `ps` may start on and every line the reader took its last token on. -/
def Reads (f : (r : Reader) → Except ParseError (α × r.Past)) (ends : Reader → Prop)
    (ps : List Piece) (x : α) : Prop :=
  ∀ l rest l', ends ⟨rest, l + lines ps⟩ →
    run f ⟨layout l ps ++ rest, l'⟩ = .ok (x, ⟨rest, l + lines ps⟩)

/-- `Reads` for the functions that read lists, from a reader whose last token is on the line
`ps` starts on, as it is after an opening bracket. -/
def ReadsOn (f : (r : Reader) → Except ParseError (α × r.Upto)) (ends : Reader → Prop)
    (ps : List Piece) (x : α) : Prop :=
  ∀ l rest, ends ⟨rest, l + lines ps⟩ →
    run f ⟨layout l ps ++ rest, l⟩ = .ok (x, ⟨rest, l + lines ps⟩)

end Reads

theorem layout_parens (l : Nat) (ps : List Piece) (rest : List Token) :
    layout l (parens ps) ++ rest = Token.at .leftParen .empty l ::
      (layout l ps ++ Token.at .rightParen .empty (l + lines ps) :: rest) := by
  simp [parens, layout_append]

theorem layout_braces (l : Nat) (ps : List Piece) (rest : List Token) :
    layout l (braces ps) ++ rest = Token.at .leftBrace .empty l ::
      (layout l ps ++ Token.at .rightBrace .empty (l + lines ps) :: rest) := by
  simp [braces, layout_append]

namespace Reads

variable {ps : List Piece} {e : Expr}

theorem mono {α : Type} {f : (r : Reader) → Except ParseError (α × r.Past)} {E E' : Reader → Prop}
    {x : α} (h : Reads f E ps x) (hE : ∀ r, E' r → E r) : Reads f E' ps x :=
  fun l rest l' hend => h l rest l' (hE _ hend)

/-! ## Expressions -/

theorem ident (n : String) :
    Reads Reader.primary (fun _ => True) [.tok .identifier (.str n)] (.ident n) :=
  fun _ _ _ _ => primary_ident (Token.at_kind _ _ _)

theorem number (x : Float) :
    Reads Reader.primary (fun _ => True) [.tok .number (.number x)] (.number x) :=
  fun _ _ _ _ => primary_number (Token.at_kind _ _ _) rfl

theorem str (t : String) :
    Reads Reader.primary (fun _ => True) [.tok .string (.str t)] (.str t) :=
  fun _ _ _ _ => primary_string (Token.at_kind _ _ _)

theorem bool_true : Reads Reader.primary (fun _ => True) [.sym (.keyword .trueKw)] (.bool true) :=
  fun _ _ _ _ => primary_true (Token.at_kind _ _ _)

theorem bool_false :
    Reads Reader.primary (fun _ => True) [.sym (.keyword .falseKw)] (.bool false) :=
  fun _ _ _ _ => primary_false (Token.at_kind _ _ _)

theorem parens (h : Reads Reader.expr EndsExpr ps e) :
    Reads Reader.primary (fun _ => True) (parens ps) e := by
  intro l rest l' _
  have inner := h l (Token.at .rightParen .empty (l + lines ps) :: rest) l
    (endsExpr_of_closes rfl)
  rw [layout_parens, lines_parens]
  exact primary_parens (Token.at_kind _ _ _) inner (Token.at_kind _ _ _)

theorem chain_of_primary (h : Reads Reader.primary EndsChain ps e) :
    Reads Reader.chain EndsChain ps e := by
  intro l rest l' hend
  have := chain_eq (h l rest l' hend) (links_stop hend.1 hend.2)
  simpa [Reader.run, chainOf] using this

theorem expr_of_chain (h : Reads Reader.chain EndsChain ps e) : Reads Reader.expr EndsExpr ps e :=
  fun l rest l' hend => Reader.expr_of_chain (h l rest l' hend.1) hend.2

theorem negate {x : Expr} (h : Reads Reader.chain EndsChain ps x) :
    Reads Reader.primary EndsChain (.sym .minus :: ps) (.negate x) := by
  intro l rest l' hend
  rw [lines_tok_cons] at hend ⊢
  exact primary_negate (Token.at_kind _ _ _) (h l rest l hend)

theorem binOp {a b : Expr} {op : BinaryOp} {pa pb : List Piece} {hk : op.kind ≠ .eof}
    (ha : Reads Reader.chain EndsChain pa a) (hb : Reads Reader.expr EndsExpr pb b) :
    Reads Reader.expr EndsExpr (pa ++ .tok op.kind .empty hk :: pb) (.binOp a op b) := by
  intro l rest l' hend
  simp only [lines_append, lines_tok_cons, ← Nat.add_assoc] at hend ⊢
  rw [layout_append, layout_tok_cons, List.append_assoc, List.cons_append]
  refine expr_binOp (ha l _ l' ?_) (BinaryOp.ofKind?_kind op)
    (hb (l + lines pa) rest (l + lines pa) hend)
  exact endsChain_of_op (BinaryOp.ofKind?_kind op)

theorem chainOf {r : Expr} {ls : List Link} {pr pl : List Piece}
    (hr : Reads Reader.primary (fun _ => True) pr r)
    (hl : ReadsOn (·.links #[]) EndsChain pl ls) :
    Reads Reader.chain EndsChain (pr ++ pl) (chainOf r ls) := by
  intro l rest l' hend
  simp only [layout_append, List.append_assoc, lines_append, ← Nat.add_assoc] at hend ⊢
  exact chain_eq (hr l _ l' trivial) (hl (l + lines pr) rest hend)

theorem array {items : List Expr}
    (hi : ReadsOn (·.exprList .rightBracket) (·.kind = .rightBracket) ps items) :
    Reads Reader.primary (fun _ => True) (.sym .leftBracket :: ps ++ [.sym .rightBracket])
      (.array items) := by
  intro l rest l' _
  simp only [layout_append, layout_tok_cons, layout_nil, List.cons_append, List.nil_append,
    List.append_assoc, lines_append, lines_tok_cons, lines_nil, Nat.add_zero]
  exact primary_array (Token.at_kind _ _ _) (hi l _ rfl) (Token.at_kind _ _ _)

theorem dict {entries : List (String × Expr)}
    (he : ReadsOn (·.dictEntries #[]) (·.kind = .rightBrace) ps entries) :
    Reads Reader.primary (fun _ => True) (.sym .leftBrace :: ps ++ [.sym .rightBrace])
      (.dict entries) := by
  intro l rest l' _
  simp only [layout_append, layout_tok_cons, layout_nil, List.cons_append, List.nil_append,
    List.append_assoc, lines_append, lines_tok_cons, lines_nil, Nat.add_zero]
  exact primary_dict (Token.at_kind _ _ _) (he l _ rfl) (Token.at_kind _ _ _)

theorem block {body : List Stmt}
    (h : ReadsOn (·.stmtsUntilBrace #[]) AtClose ps body) :
    Reads Reader.block (fun _ => True) (braces ps) body := by
  intro l rest l' _
  rw [layout_braces, lines_braces]
  exact block_eq (Token.at_kind _ _ _) (h l _ (.inl rfl)) (Token.at_kind _ _ _)

end Reads

/-! ## Lists -/

namespace ReadsOn

variable {ps pr : List Piece}

theorem links_nil (acc : Array Link) : ReadsOn (·.links acc) EndsChain [] acc.toList :=
  fun _ _ hend => links_stop hend.1 hend.2

theorem links_call {args : List Expr} {acc : Array Link} {ls : List Link}
    (ha : ReadsOn (·.exprList .rightParen) (·.kind = .rightParen) ps args)
    (hrest : ReadsOn (·.links (acc.push (.call args))) EndsChain pr ls) :
    ReadsOn (·.links acc) EndsChain (.sym .leftParen :: ps ++ .sym .rightParen :: pr) ls := by
  intro l rest hend
  simp only [layout_append, layout_tok_cons, List.cons_append, List.append_assoc, lines_append,
    lines_tok_cons, ← Nat.add_assoc] at hend ⊢
  exact Reader.links_call (Token.at_kind _ _ _) rfl (ha l _ rfl) (Token.at_kind _ _ _)
    (hrest (l + lines ps) rest hend)

theorem links_attr {n : String} {acc : Array Link} {ls : List Link}
    (hrest : ReadsOn (·.links (acc.push (.attr n))) EndsChain pr ls) :
    ReadsOn (·.links acc) EndsChain (.sym .period :: .tok .identifier (.str n) :: pr) ls := by
  intro l rest hend
  rw [lines_tok_cons, lines_tok_cons] at hend ⊢
  exact Reader.links_attr (Token.at_kind _ _ _) (Token.at_kind _ _ _) (hrest l rest hend)

theorem links_index {key : Expr} {acc : Array Link} {ls : List Link}
    (hk : Reads Reader.expr EndsExpr ps key)
    (hrest : ReadsOn (·.links (acc.push (.index key))) EndsChain pr ls) :
    ReadsOn (·.links acc) EndsChain (.sym .leftBracket :: ps ++ .sym .rightBracket :: pr) ls := by
  intro l rest hend
  simp only [layout_append, layout_tok_cons, List.cons_append, List.append_assoc, lines_append,
    lines_tok_cons, ← Nat.add_assoc] at hend ⊢
  exact Reader.links_index (Token.at_kind _ _ _) rfl (hk l _ l (endsExpr_of_closes rfl))
    (Token.at_kind _ _ _) (hrest (l + lines ps) rest hend)

theorem endsExpr_before {closing : TokenKind} (hclose : closing.closesExpr)
    (hnext : pr = [] ∨ ∃ ps', pr = .sym .comma :: ps') {l : Nat} {rest : List Token}
    (hend : (⟨rest, l + lines pr⟩ : Reader).kind = closing) :
    (⟨layout l pr ++ rest, l⟩ : Reader).EndsExpr := by
  rcases hnext with rfl | ⟨ps', rfl⟩
  · exact endsExpr_of_closes (by rw [← hclose]; exact congrArg _ hend)
  · exact endsExpr_of_closes rfl

theorem exprList_nil (closing : TokenKind) :
    ReadsOn (·.exprList closing) (·.kind = closing) [] [] :=
  fun _ _ hend => exprList_closing hend

theorem exprList_cons {closing : TokenKind} {e : Expr} {es : List Expr}
    (he : Reads Reader.expr EndsExpr ps e)
    (ht : ReadsOn (·.exprListTail #[e]) (·.kind = closing) pr es)
    (hfirst : ∃ k lit h ps', ps = .tok k lit h :: ps' ∧ k ≠ closing)
    (hnext : pr = [] ∨ ∃ ps', pr = .sym .comma :: ps') (hclose : closing.closesExpr) :
    ReadsOn (·.exprList closing) (·.kind = closing) (ps ++ pr) es := by
  intro l rest hend
  obtain ⟨k, lit, h, ps', rfl, hk⟩ := hfirst
  rw [lines_append, ← Nat.add_assoc] at hend ⊢
  rw [layout_append, List.append_assoc]
  exact Reader.exprList_cons hk (he l _ l (endsExpr_before hclose hnext hend))
    (ht (l + lines (.tok k lit h :: ps')) rest hend)

theorem exprListTail_nil {closing : TokenKind} (acc : Array Expr) (hclose : closing ≠ .comma) :
    ReadsOn (·.exprListTail acc) (·.kind = closing) [] acc.toList :=
  fun l rest hend =>
    have hk : (⟨rest, l⟩ : Reader).kind = closing := hend
    exprListTail_stop fun h => hclose (hk.symm.trans h)

theorem exprListTail_cons {closing : TokenKind} {acc : Array Expr} {e : Expr} {es : List Expr}
    (he : Reads Reader.expr EndsExpr ps e)
    (ht : ReadsOn (·.exprListTail (acc.push e)) (·.kind = closing) pr es)
    (hnext : pr = [] ∨ ∃ ps', pr = .sym .comma :: ps') (hclose : closing.closesExpr) :
    ReadsOn (·.exprListTail acc) (·.kind = closing) (.sym .comma :: ps ++ pr) es := by
  intro l rest hend
  simp only [layout_append, layout_tok_cons, List.cons_append, List.append_assoc, lines_append,
    lines_tok_cons, ← Nat.add_assoc] at hend ⊢
  exact Reader.exprListTail_cons (Token.at_kind _ _ _) (he l _ l (endsExpr_before hclose hnext hend))
    (ht (l + lines ps) rest hend)

theorem entries_nil (acc : Array (String × Expr)) :
    ReadsOn (·.dictEntries acc) (·.kind = .rightBrace) [] acc.toList :=
  fun _ _ hend => dictEntries_close hend

theorem entries_last {k : String} {v : Expr} {acc : Array (String × Expr)}
    (hv : Reads Reader.expr EndsExpr ps v) :
    ReadsOn (·.dictEntries acc) (·.kind = .rightBrace)
      (.tok .string (.str k) :: .sym .colon :: ps) (acc.push (k, v)).toList := by
  intro l rest hend
  rw [lines_tok_cons, lines_tok_cons] at hend ⊢
  exact dictEntries_last (Token.at_kind _ _ _) (Token.at_kind _ _ _) (hv l rest l (endsExpr_of_closes (by rw [hend]; rfl))) hend

theorem entries_more {k : String} {v : Expr} {acc : Array (String × Expr)}
    {es : List (String × Expr)} (hv : Reads Reader.expr EndsExpr ps v)
    (hrest : ReadsOn (·.dictEntries (acc.push (k, v))) (·.kind = .rightBrace) pr es) :
    ReadsOn (·.dictEntries acc) (·.kind = .rightBrace)
      (.tok .string (.str k) :: .sym .colon :: ps ++ .sym .comma :: pr) es := by
  intro l rest hend
  simp only [layout_append, layout_tok_cons, List.cons_append, List.append_assoc, lines_append,
    lines_tok_cons, ← Nat.add_assoc] at hend ⊢
  exact dictEntries_more (Token.at_kind _ _ _) (Token.at_kind _ _ _) (hv l _ l (endsExpr_of_closes rfl)) (Token.at_kind _ _ _)
    (hrest (l + lines ps) rest hend)

theorem namesTail (ms : List String) (acc : Array String) :
    ReadsOn (·.nameListTail acc) (·.kind = .rightParen) (renderNamesTail ms)
      (acc.toList ++ ms) := by
  induction ms generalizing acc with
  | nil =>
    intro l rest hend
    simp only [renderNamesTail, kind_eq, layout_nil, List.nil_append] at hend ⊢
    simpa [Reader.run] using nameListTail_stop (by rw [kind_eq, hend]; decide)
  | cons m ms ih =>
    intro l rest hend
    simp only [renderNamesTail, lines_tok_cons] at hend ⊢
    simpa [Reader.run] using nameListTail_cons (Token.at_kind .comma .empty l)
      (Token.at_kind .identifier (.str m) l) (ih (acc.push m) l rest hend)

theorem names (ns : List String) :
    ReadsOn Reader.nameList (·.kind = .rightParen) (renderNames ns) ns := by
  intro l rest hend
  cases ns with
  | nil =>
    simp only [renderNames, layout_nil, List.nil_append, lines_nil, Nat.add_zero] at hend ⊢
    exact nameList_empty (by rw [hend]; decide)
  | cons n ns =>
    simp only [renderNames, lines_tok_cons] at hend ⊢
    simpa [Reader.run] using nameList_cons (Token.at_kind .identifier (.str n) l)
      (namesTail ns #[n] l rest hend)

end ReadsOn

/-! ## Blocks and branches -/

/-- A token kind a written statement may begin with. -/
def TokenKind.opensStmt : TokenKind → Bool
  | .identifier | .number | .string | .leftParen | .leftBracket | .leftBrace => true
  | .keyword .trueKw | .keyword .falseKw | .keyword .funcKw | .keyword .varKw
  | .keyword .returnKw | .keyword .ifKw | .keyword .whileKw | .keyword .forKw => true
  | _ => false

theorem TokenKind.opensStmt_spec {k : TokenKind} (h : k.opensStmt) :
    k ≠ .period ∧ BinaryOp.ofKind? k = none ∧ k ≠ .keyword .elifKw ∧ k ≠ .keyword .elseKw ∧
      k ≠ .rightBrace ∧ k ≠ .eof := by
  cases k <;> (try cases ‹Keyword›) <;> simp_all [TokenKind.opensStmt, BinaryOp.ofKind?]

/-- Pieces that begin with a statement: a new line, then a token a statement may begin with. -/
def OpensStmt (ps : List Piece) : Prop :=
  ∃ k lit h ps', ps = .newline :: .tok k lit h :: ps' ∧ k.opensStmt

theorem Reader.endsStmt_of_atClose {r : Reader} (h : r.AtClose) : r.EndsStmt := by
  have hc : r.kind.closesExpr := by rcases h with h | h <;> rw [h] <;> rfl
  refine ⟨endsExpr_of_closes hc, ?_, ?_⟩ <;> rcases h with h | h <;> rw [h] <;> decide

theorem Reader.endsStmt_before {pr : List Piece} (hnext : pr = [] ∨ OpensStmt pr) {l : Nat}
    {rest : List Token} (hend : AtClose ⟨rest, l + lines pr⟩) :
    (⟨layout l pr ++ rest, l⟩ : Reader).EndsStmt := by
  rcases hnext with rfl | ⟨k, lit, h, ps', rfl, hk⟩
  · exact endsStmt_of_atClose hend
  · obtain ⟨hdot, hop, helif, helse, -, -⟩ := TokenKind.opensStmt_spec hk
    exact ⟨⟨⟨hdot, fun _ => Nat.succ_ne_self l⟩, hop⟩, helif, helse⟩

namespace ReadsOn

variable {ps pr : List Piece}

theorem stmts_nil (acc : Array Stmt) : ReadsOn (·.stmtsUntilBrace acc) AtClose [] acc.toList :=
  fun _ _ hend => stmtsUntilBrace_stop hend

theorem stmts_cons {st : Stmt} {ss : List Stmt} {acc : Array Stmt}
    (hs : Reads Reader.stmt EndsStmt ps st)
    (hrest : ReadsOn (·.stmtsUntilBrace (acc.push st)) AtClose pr ss)
    (hfirst : OpensStmt ps) (hnext : pr = [] ∨ OpensStmt pr) :
    ReadsOn (·.stmtsUntilBrace acc) AtClose (ps ++ pr) ss := by
  intro l rest hend
  obtain ⟨k, lit, h, ps', rfl, hk⟩ := hfirst
  obtain ⟨-, -, -, -, hbrace, heof⟩ := TokenKind.opensStmt_spec hk
  rw [lines_append, ← Nat.add_assoc] at hend ⊢
  rw [layout_append, List.append_assoc]
  exact stmtsUntilBrace_cons hbrace heof (hs l _ l (endsStmt_before hnext hend))
    (hrest _ rest hend)

theorem branches_nil (acc : Array Branch) : ReadsOn (·.elifs acc) AtNoBranch [] acc.toList :=
  fun _ _ hend => elifs_stop hend.1 hend.2

theorem branches_elif {t : Expr} {body : List Stmt} {bs : List Branch} {acc : Array Branch}
    {pt pb : List Piece} (ht : Reads Reader.expr EndsExpr pt t)
    (hb : ReadsOn (·.stmtsUntilBrace #[]) AtClose pb body)
    (hrest : ReadsOn (·.elifs (acc.push (.elif t body))) AtNoBranch pr bs) :
    ReadsOn (·.elifs acc) AtNoBranch (.sym (.keyword .elifKw) :: pt ++ braces pb ++ pr) bs := by
  intro l rest hend
  simp only [layout_append, layout_tok_cons, List.cons_append, List.append_assoc, lines_append,
    lines_tok_cons, ← Nat.add_assoc] at hend ⊢
  exact elifs_elif (Token.at_kind _ _ _) (ht l _ l (endsExpr_of_closes rfl))
    (Reads.block hb _ _ _ trivial) (hrest _ rest hend)

theorem branches_else {body : List Stmt} {acc : Array Branch} {pb : List Piece}
    (hb : ReadsOn (·.stmtsUntilBrace #[]) AtClose pb body) :
    ReadsOn (·.elifs acc) AtNoBranch (.sym (.keyword .elseKw) :: braces pb)
      (acc.push (.otherwise body)).toList := by
  intro l rest _
  rw [lines_tok_cons, layout_tok_cons, List.cons_append]
  exact elifs_else (Token.at_kind _ _ _) (Reads.block hb l rest l trivial)

end ReadsOn

/-! ## Statements -/

namespace Reads

variable {ps : List Piece} {e : Expr}

theorem lambda {params : List String} {body : List Stmt} {pb : List Piece}
    (hb : ReadsOn (·.stmtsUntilBrace #[]) AtClose pb body) :
    Reads Reader.primary (fun _ => True)
      (.sym (.keyword .funcKw) :: Syntax.parens (renderNames params) ++ braces pb)
      (.lambda params body) := by
  intro l rest l' _
  simp only [Syntax.parens, layout_append, layout_tok_cons, List.cons_append, List.nil_append,
    List.append_assoc, lines_append, lines_tok_cons, ← Nat.add_assoc]
  exact primary_lambda (Token.at_kind _ _ _) (Token.at_kind _ _ _) (ReadsOn.names params l _ rfl)
    (Token.at_kind _ _ _) (block hb _ rest _ trivial)

theorem var {n : String} (he : Reads Reader.expr EndsExpr ps e) :
    Reads Reader.stmt EndsStmt
      (.newline :: .sym (.keyword .varKw) :: .tok .identifier (.str n) :: .sym .equal :: ps)
      (.var n e) := by
  intro l rest l' hend
  simp only [layout_newline_cons, layout_tok_cons, lines_newline_cons, lines_tok_cons,
    List.cons_append, ← Nat.add_assoc] at hend ⊢
  exact stmt_var (Token.at_kind _ _ _) (Token.at_kind _ _ _) (Token.at_kind _ _ _)
    (he (l + 1) rest (l + 1) hend.1)

theorem func {n : String} {params : List String} {body : List Stmt} {pb : List Piece}
    (hb : ReadsOn (·.stmtsUntilBrace #[]) AtClose pb body) :
    Reads Reader.stmt EndsStmt
      (.newline :: .sym (.keyword .funcKw) :: .tok .identifier (.str n) ::
        Syntax.parens (renderNames params) ++ braces pb) (.func n params body) := by
  intro l rest l' _
  simp only [Syntax.parens, layout_newline_cons, layout_append, layout_tok_cons, List.cons_append,
    List.nil_append, List.append_assoc, lines_newline_cons, lines_append, lines_tok_cons,
    ← Nat.add_assoc]
  exact stmt_func (Token.at_kind _ _ _) (Token.at_kind _ _ _) (Token.at_kind _ _ _)
    (ReadsOn.names params (l + 1) _ rfl) (Token.at_kind _ _ _) (block hb _ rest _ trivial)

theorem ret (he : Reads Reader.expr EndsExpr ps e) :
    Reads Reader.stmt EndsStmt (.newline :: .sym (.keyword .returnKw) :: ps) (.ret e) := by
  intro l rest l' hend
  simp only [layout_newline_cons, layout_tok_cons, lines_newline_cons, lines_tok_cons,
    List.cons_append, ← Nat.add_assoc] at hend ⊢
  exact stmt_ret (Token.at_kind _ _ _) (he (l + 1) rest (l + 1) hend.1)

theorem ifElse {t : Expr} {body : List Stmt} {bs : List Branch} {pt pb pr : List Piece}
    (ht : Reads Reader.expr EndsExpr pt t)
    (hb : ReadsOn (·.stmtsUntilBrace #[]) AtClose pb body)
    (hbs : ReadsOn (·.elifs #[]) AtNoBranch pr bs) :
    Reads Reader.stmt EndsStmt (.newline :: .sym (.keyword .ifKw) :: pt ++ braces pb ++ pr)
      (.ifElse t body bs) := by
  intro l rest l' hend
  simp only [layout_newline_cons, layout_append, layout_tok_cons, List.cons_append,
    List.append_assoc, lines_newline_cons, lines_append, lines_tok_cons, ← Nat.add_assoc] at hend ⊢
  exact stmt_if (Token.at_kind _ _ _) (ht (l + 1) _ (l + 1) (endsExpr_of_closes rfl))
    (block hb _ _ _ trivial) (hbs _ rest hend.2)

theorem whileLoop {t : Expr} {body : List Stmt} {pt pb : List Piece}
    (ht : Reads Reader.expr EndsExpr pt t)
    (hb : ReadsOn (·.stmtsUntilBrace #[]) AtClose pb body) :
    Reads Reader.stmt EndsStmt (.newline :: .sym (.keyword .whileKw) :: pt ++ braces pb)
      (.whileLoop t body) := by
  intro l rest l' _
  simp only [layout_newline_cons, layout_append, layout_tok_cons, List.cons_append,
    List.append_assoc, lines_newline_cons, lines_append, lines_tok_cons, ← Nat.add_assoc]
  exact stmt_while (Token.at_kind _ _ _) (ht (l + 1) _ (l + 1) (endsExpr_of_closes rfl))
    (block hb _ rest _ trivial)

/-- A range loop; its bounds are read as a list of two, so the first must not begin with `)`. -/
theorem forRange {n : String} {a b : Expr} {body : List Stmt} {pa pb pbody : List Piece}
    (ha : Reads Reader.expr EndsExpr pa a) (hb : Reads Reader.expr EndsExpr pb b)
    (hfirst : ∃ k lit h ps', pa = .tok k lit h :: ps' ∧ k ≠ .rightParen)
    (hbody : ReadsOn (·.stmtsUntilBrace #[]) AtClose pbody body) :
    Reads Reader.stmt EndsStmt
      (.newline :: .sym (.keyword .forKw) :: .tok .identifier (.str n) ::
        .sym (.keyword .rangeKw) :: Syntax.parens (pa ++ .sym .comma :: pb) ++ braces pbody)
      (.forRange n a b body) := by
  have hbounds : ReadsOn (·.exprList .rightParen) (·.kind = .rightParen)
      (pa ++ .sym .comma :: pb) [a, b] := by
    have := ReadsOn.exprList_cons ha
      (ReadsOn.exprListTail_cons hb (ReadsOn.exprListTail_nil _ (by decide)) (.inl rfl) rfl)
      hfirst (.inr ⟨_, rfl⟩) rfl
    simpa using this
  generalize pa ++ .sym .comma :: pb = pbounds at hbounds
  intro l rest l' _
  simp only [Syntax.parens, layout_newline_cons, layout_append, layout_tok_cons, List.cons_append,
    List.nil_append, List.append_assoc, lines_newline_cons, lines_append, lines_tok_cons,
    ← Nat.add_assoc]
  exact stmt_for (Token.at_kind _ _ _) (Token.at_kind _ _ _) (Token.at_kind _ _ _)
    (Token.at_kind _ _ _) (hbounds (l + 1) _ rfl) (Token.at_kind _ _ _)
    (block hbody _ rest _ trivial)

/-- An expression statement: its first token is no statement keyword, and a function keyword
that begins it is followed by `(`, not by a name. -/
theorem exprStmt (he : Reads Reader.expr EndsExpr ps e)
    (hfirst : ∃ k lit h ps', ps = .tok k lit h :: ps' ∧
      k ∉ [.keyword .varKw, .keyword .returnKw, .keyword .ifKw, .keyword .whileKw,
        .keyword .forKw] ∧
      (k = .keyword .funcKw → ∃ h' ps'', ps' = .tok .leftParen .empty h' :: ps'')) :
    Reads Reader.stmt EndsStmt (.newline :: ps) (.expr e) := by
  intro l rest l' hend
  obtain ⟨k, lit, h, ps', rfl, hk, hfunc⟩ := hfirst
  simp only [layout_newline_cons, lines_newline_cons, ← Nat.add_assoc] at hend ⊢
  refine stmt_expr hk (fun hf => ?_) (he (l + 1) rest l' hend.1)
  obtain ⟨h', ps'', rfl⟩ := hfunc hf
  show TokenKind.leftParen ≠ .identifier
  decide

end Reads

/-! ## Slots -/

/-- The parsing function that reads an expression written in a slot. -/
def Slot.parse : Slot → (r : Reader) → Except ParseError (Expr × r.Past)
  | .bare _ => Reader.expr
  | .operand _ => Reader.chain
  | .head => Reader.primary

/-- What may follow an expression written in a slot. -/
def Slot.Ends : Slot → Reader → Prop
  | .bare _ => EndsExpr
  | .operand _ => EndsChain
  | .head => fun _ => True

namespace Reads

variable {ps : List Piece} {e : Expr}

theorem slot_of_primary (h : Reads Reader.primary (fun _ => True) ps e) (s : Slot) :
    Reads s.parse s.Ends ps e := by
  cases s with
  | bare => exact expr_of_chain (chain_of_primary (h.mono fun _ _ => trivial))
  | operand => exact chain_of_primary (h.mono fun _ _ => trivial)
  | head => exact h

theorem slot_parens (h : Reads Reader.expr EndsExpr ps e) (s : Slot) :
    Reads s.parse s.Ends (Syntax.parens ps) e :=
  slot_of_primary (parens h) s

theorem slot_binOp (h : Reads Reader.expr EndsExpr ps e) (s : Slot) :
    Reads s.parse s.Ends (wrapIf s.wrapsBinOp ps) e := by
  cases s with
  | bare => exact h
  | operand => exact slot_parens h _
  | head => exact slot_parens h _

theorem slot_chain (h : Reads Reader.chain EndsChain ps e) (s : Slot) :
    Reads s.parse s.Ends (wrapIf s.wrapsCall ps) e := by
  cases s with
  | bare => exact expr_of_chain h
  | operand => exact h
  | head => exact slot_parens (expr_of_chain h) _

theorem slot_negate {x : Expr} (h : Reads Reader.chain EndsChain ps x) (s : Slot) :
    Reads s.parse s.Ends (wrapIf s.wrapsNegate (.sym .minus :: ps)) (.negate x) := by
  have hp := chain_of_primary (negate h)
  cases s with
  | bare lead =>
    cases lead
    · exact expr_of_chain hp
    · exact slot_parens (expr_of_chain hp) _
  | operand lead =>
    cases lead
    · exact hp
    · exact slot_parens (expr_of_chain hp) _
  | head => exact slot_parens (expr_of_chain hp) _

end Reads

end Arson.Syntax
