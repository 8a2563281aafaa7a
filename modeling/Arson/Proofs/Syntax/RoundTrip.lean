import Arson.Proofs.Syntax.Shape
import Arson.Proofs.Syntax.Reads
/-!
# Parsing a written program gives it back

Every program in the parser's shape, written as tokens by `render`, parses to itself
(`parse_render`). With `parse_shaped` this says that the programs the parser gives are exactly
those in its shape, and that `render` undoes `parse` on them.

The proof follows the syntax tree: the pieces of each node are read by the parser branch that
the lemmas of `Reads` give for it, from the facts for its children. The parser decides some
branches by the first token of what comes next (a statement keyword, `func` and a name, a
closing bracket), so the first tokens of written expressions and statements come first.
-/
namespace Arson.Syntax

open Reader

theorem toList_push_append {α : Type} (acc : Array α) (x : α) (xs : List α) :
    (acc.push x).toList ++ xs = acc.toList ++ x :: xs := by
  simp

/-! ## First tokens -/

/-- A token kind a written expression may begin with. -/
def TokenKind.opensExpr : TokenKind → Bool
  | .identifier | .number | .string | .leftParen | .leftBracket | .leftBrace | .minus => true
  | .keyword .trueKw | .keyword .falseKw | .keyword .funcKw => true
  | _ => false

theorem TokenKind.opensExpr_spec {k : TokenKind} (h : k.opensExpr) :
    k ≠ .rightParen ∧ k ≠ .rightBracket ∧
      k ∉ [.keyword .varKw, .keyword .returnKw, .keyword .ifKw, .keyword .whileKw,
        .keyword .forKw] := by
  cases k <;> (try cases ‹Keyword›) <;> simp_all [TokenKind.opensExpr]

theorem TokenKind.opensStmt_of_opensExpr {k : TokenKind} (h : k.opensExpr) (hm : k ≠ .minus) :
    k.opensStmt := by
  cases k <;> (try cases ‹Keyword›) <;> simp_all [TokenKind.opensExpr, TokenKind.opensStmt]

/-- Pieces that begin with a token an expression may begin with: never a minus when `neg`, and
a `(` after a function keyword, so that no name follows it. -/
def OpensExpr (neg : Bool) (ps : List Piece) : Prop :=
  ∃ k lit h ps', ps = .tok k lit h :: ps' ∧ k.opensExpr ∧ (neg → k ≠ .minus) ∧
    (k = .keyword .funcKw → ∃ h' ps'', ps' = .tok .leftParen .empty h' :: ps'')

namespace OpensExpr

variable {neg : Bool} {ps : List Piece}

theorem tok {k : TokenKind} {lit : Literal} {h : k ≠ .eof} (hk : k.opensExpr) (hm : k ≠ .minus)
    (hf : k ≠ .keyword .funcKw) (ps : List Piece) : OpensExpr neg (.tok k lit h :: ps) :=
  ⟨k, lit, h, ps, rfl, hk, fun _ => hm, fun h => absurd h hf⟩

theorem parens : OpensExpr neg (Syntax.parens ps) :=
  tok rfl (by decide) (by decide) _

theorem append (h : OpensExpr neg ps) (qs : List Piece) : OpensExpr neg (ps ++ qs) := by
  obtain ⟨k, lit, hk, ps', rfl, hopen, hm, hf⟩ := h
  refine ⟨k, lit, hk, ps' ++ qs, rfl, hopen, hm, fun h => ?_⟩
  obtain ⟨h', ps'', rfl⟩ := hf h
  exact ⟨h', ps'' ++ qs, rfl⟩

theorem weaken (h : OpensExpr true ps) : OpensExpr neg ps := by
  obtain ⟨k, lit, hk, ps', rfl, hopen, hm, hf⟩ := h
  exact ⟨k, lit, hk, ps', rfl, hopen, fun _ => hm rfl, hf⟩

theorem wrapIf {b : Bool} (h : b = false → OpensExpr neg ps) : OpensExpr neg (wrapIf b ps) := by
  cases b with
  | false => exact h rfl
  | true => exact parens

end OpensExpr

/-- A written expression begins with a token an expression may begin with; where a negation
would be wrapped, it is not a minus. -/
theorem Expr.render_opens : (e : Expr) → (s : Slot) → OpensExpr s.wrapsNegate (e.render s)
  | .ident _, _ => .tok rfl (by decide) (by decide) _
  | .number _, _ => .tok rfl (by decide) (by decide) _
  | .str _, _ => .tok rfl (by decide) (by decide) _
  | .bool true, _ => .tok rfl (by decide) (by decide) _
  | .bool false, _ => .tok rfl (by decide) (by decide) _
  | .negate _, _ => .wrapIf fun hw => ⟨.minus, .empty, by decide, _, rfl, rfl,
      fun h => absurd (hw ▸ h) Bool.false_ne_true, nofun⟩
  | .binOp a _ _, s => .wrapIf fun hw => by
    -- unwrapped only as a whole expression, whose left operand keeps its place
    cases s with
    | bare lead =>
      have ha := Expr.render_opens a (.operand lead)
      simp only [Slot.lead, Slot.wrapsBinOp, Slot.wrapsNegate, Bool.not_false, Bool.and_true]
        at ha ⊢
      exact ha.append _
    | operand => cases hw
    | head => cases hw
  | .call f _, _ => .wrapIf fun _ => ((Expr.render_opens f .head).weaken.append _).append _
  | .array _, _ => .tok rfl (by decide) (by decide) _
  | .dict _, _ => .tok rfl (by decide) (by decide) _
  | .lambda _ _, _ => ⟨_, .empty, by decide, _, rfl, rfl, fun _ => by decide,
    fun _ => ⟨_, _, rfl⟩⟩
  | .chain r _, _ => .wrapIf fun _ => (Expr.render_opens r .head).weaken.append _

theorem Expr.renderTail_eq (es : List Expr) :
    Expr.renderTail es = [] ∨ ∃ ps, Expr.renderTail es = .sym .comma :: ps := by
  cases es with
  | nil => exact .inl rfl
  | cons e es => exact .inr ⟨_, rfl⟩

theorem OpensStmt.append {ps : List Piece} (h : OpensStmt ps) (qs : List Piece) :
    OpensStmt (ps ++ qs) := by
  obtain ⟨k, lit, hk, ps', rfl, hopen⟩ := h
  exact ⟨k, lit, hk, ps' ++ qs, rfl, hopen⟩

theorem Stmt.render_opens : (st : Stmt) → OpensStmt st.render
  | .var .. | .func .. | .ret _ | .ifElse .. | .whileLoop .. | .forRange .. =>
    ⟨_, _, _, _, rfl, rfl⟩
  | .expr e => by
    obtain ⟨k, lit, hk, ps', heq, hopen, hm, -⟩ := Expr.render_opens e (.bare true)
    exact ⟨k, lit, hk, ps', by rw [Stmt.render, heq],
      TokenKind.opensStmt_of_opensExpr hopen (hm rfl)⟩

theorem Stmt.renderList_opens : (ss : List Stmt) →
    Stmt.renderList ss = [] ∨ OpensStmt (Stmt.renderList ss)
  | [] => .inl rfl
  | st :: _ => .inr ((Stmt.render_opens st).append _)

/-! ## Reading back -/

theorem Reader.chainOf_chainable {r : Expr} {ls : List Link} (h : Link.chainable ls) :
    chainOf r ls = .chain r ls := by
  match ls, h with
  | [.attr _], _ | [.index _], _ => rfl
  | l :: _ :: _, _ => cases l <;> rfl

theorem Expr.render_first_ne {closing : TokenKind}
    (hc : closing = .rightParen ∨ closing = .rightBracket) (e : Expr) :
    ∃ k lit h ps', e.render (.bare false) = .tok k lit h :: ps' ∧ k ≠ closing := by
  obtain ⟨k, lit, hk, ps', heq, hopen, -, -⟩ := Expr.render_opens e (.bare false)
  obtain ⟨hparen, hbracket, -⟩ := TokenKind.opensExpr_spec hopen
  exact ⟨k, lit, hk, ps', heq, by rcases hc with rfl | rfl <;> assumption⟩

theorem closesExpr_of_closing {closing : TokenKind}
    (hc : closing = .rightParen ∨ closing = .rightBracket) : closing.closesExpr := by
  rcases hc with rfl | rfl <;> rfl

mutual
/-- Each expression in the parser's shape, written in a slot, is read back by that slot's
parsing function. -/
theorem Expr.reads_render : (e : Expr) → e.shaped → (s : Slot) →
    Reads s.parse s.Ends (e.render s) e
  | .ident n, _, s => Reads.slot_of_primary (Reads.ident n) s
  | .number x, _, s => Reads.slot_of_primary (Reads.number x) s
  | .str t, _, s => Reads.slot_of_primary (Reads.str t) s
  | .bool true, _, s => Reads.slot_of_primary Reads.bool_true s
  | .bool false, _, s => Reads.slot_of_primary Reads.bool_false s
  | .negate e, h, s => Reads.slot_negate (Expr.reads_render e h (.operand false)) s
  | .binOp a op b, h, s => by
    simp only [Expr.shaped, Bool.and_eq_true] at h
    exact Reads.slot_binOp (Reads.binOp (Expr.reads_render a h.1 (.operand (s.lead && !s.wrapsBinOp)))
      (Expr.reads_render b h.2 (.bare false))) s
  | .call f args, h, s => by
    simp only [Expr.shaped, Bool.and_eq_true] at h
    have hargs := ReadsOn.links_call (Expr.reads_renderList args h.2 _ (.inl rfl))
      (ReadsOn.links_nil (#[].push (.call args)))
    have hchain := Reads.chainOf (Expr.reads_render f h.1 .head) hargs
    rw [← List.append_assoc] at hchain
    exact Reads.slot_chain hchain s
  | .array items, h, s =>
    Reads.slot_of_primary (Reads.array (Expr.reads_renderList items h _ (.inr rfl))) s
  | .dict entries, h, s =>
    Reads.slot_of_primary (Reads.dict (Expr.reads_renderEntries entries h #[])) s
  | .lambda params body, h, s =>
    Reads.slot_of_primary (Reads.lambda (Stmt.reads_renderList body h #[])) s
  | .chain r ls, h, s => by
    simp only [Expr.shaped, Bool.and_eq_true] at h
    have hchain := Reads.chainOf (Expr.reads_render r h.1.1 .head)
      (Link.reads_renderList ls h.2 #[])
    rw [Array.toList_empty, List.nil_append, Reader.chainOf_chainable h.1.2] at hchain
    exact Reads.slot_chain hchain s

/-- Items separated by commas, read up to the bracket that closes them. -/
theorem Expr.reads_renderList : (es : List Expr) → Expr.allShaped es → (closing : TokenKind) →
    closing = .rightParen ∨ closing = .rightBracket →
    ReadsOn (·.exprList closing) (·.kind = closing) (Expr.renderList es) es
  | [], _, closing, _ => ReadsOn.exprList_nil closing
  | e :: es, h, closing, hc => by
    simp only [Expr.allShaped, Bool.and_eq_true] at h
    exact ReadsOn.exprList_cons (Expr.reads_render e h.1 (.bare false))
      (Expr.reads_renderTail es h.2 closing hc #[e]) (Expr.render_first_ne hc e)
      (Expr.renderTail_eq es) (closesExpr_of_closing hc)

theorem Expr.reads_renderTail : (es : List Expr) → Expr.allShaped es → (closing : TokenKind) →
    closing = .rightParen ∨ closing = .rightBracket → (acc : Array Expr) →
    ReadsOn (·.exprListTail acc) (·.kind = closing) (Expr.renderTail es) (acc.toList ++ es)
  | [], _, _, hc, acc => by
    rw [List.append_nil]
    exact ReadsOn.exprListTail_nil acc (by rcases hc with rfl | rfl <;> decide)
  | e :: es, h, closing, hc, acc => by
    simp only [Expr.allShaped, Bool.and_eq_true] at h
    have ht := Expr.reads_renderTail es h.2 closing hc (acc.push e)
    rw [toList_push_append] at ht
    exact ReadsOn.exprListTail_cons (Expr.reads_render e h.1 (.bare false)) ht
      (Expr.renderTail_eq es) (closesExpr_of_closing hc)

/-- Dict entries, read up to the closing brace; a comma after the last would be read too. -/
theorem Expr.reads_renderEntries : (es : List (String × Expr)) → Expr.entriesShaped es →
    (acc : Array (String × Expr)) →
    ReadsOn (·.dictEntries acc) (·.kind = .rightBrace) (Expr.renderEntries es) (acc.toList ++ es)
  | [], _, acc => by
    rw [List.append_nil]
    exact ReadsOn.entries_nil acc
  | [(k, v)], h, acc => by
    simp only [Expr.entriesShaped, Bool.and_eq_true] at h
    rw [Expr.renderEntries, Expr.renderEntriesTail, List.append_nil, ← Array.toList_push]
    exact ReadsOn.entries_last (Expr.reads_render v h.1 (.bare false))
  | (k, v) :: (k', v') :: es, h, acc => by
    simp only [Expr.entriesShaped, Bool.and_eq_true] at h
    have hrest := Expr.reads_renderEntries ((k', v') :: es) (by simp [Expr.entriesShaped, h.2])
      (acc.push (k, v))
    rw [toList_push_append] at hrest
    exact ReadsOn.entries_more (Expr.reads_render v h.1 (.bare false)) hrest

/-- Links, read while the chain goes on. -/
theorem Link.reads_renderList : (ls : List Link) → Link.allShaped ls → (acc : Array Link) →
    ReadsOn (·.links acc) EndsChain (Link.renderList ls) (acc.toList ++ ls)
  | [], _, acc => by
    rw [List.append_nil]
    exact ReadsOn.links_nil acc
  | .call args :: ls, h, acc => by
    simp only [Link.allShaped, Link.shaped, Bool.and_eq_true] at h
    have hrest := Link.reads_renderList ls h.2 (acc.push (.call args))
    rw [toList_push_append] at hrest
    exact ReadsOn.links_call (Expr.reads_renderList args h.1 _ (.inl rfl)) hrest
  | .attr n :: ls, h, acc => by
    simp only [Link.allShaped, Link.shaped, Bool.true_and] at h
    have hrest := Link.reads_renderList ls h (acc.push (.attr n))
    rw [toList_push_append] at hrest
    exact ReadsOn.links_attr hrest
  | .index key :: ls, h, acc => by
    simp only [Link.allShaped, Link.shaped, Bool.and_eq_true] at h
    have hrest := Link.reads_renderList ls h.2 (acc.push (.index key))
    rw [toList_push_append] at hrest
    exact ReadsOn.links_index (Expr.reads_render key h.1 (.bare false)) hrest

/-- The branches of a conditional, `elif`s and then at most one `else`. -/
theorem Branch.reads_renderList : (bs : List Branch) → Branch.ordered bs → Branch.allShaped bs →
    (acc : Array Branch) →
    ReadsOn (·.elifs acc) AtNoBranch (Branch.renderList bs) (acc.toList ++ bs)
  | [], _, _, acc => by
    rw [List.append_nil]
    exact ReadsOn.branches_nil acc
  | .elif t body :: bs, hord, h, acc => by
    simp only [Branch.allShaped, Branch.shaped, Bool.and_eq_true] at h
    have hrest := Branch.reads_renderList bs hord h.2 (acc.push (.elif t body))
    rw [toList_push_append] at hrest
    exact ReadsOn.branches_elif (Expr.reads_render t h.1.1 (.bare false))
      (Stmt.reads_renderList body h.1.2 #[]) hrest
  | [.otherwise body], _, h, acc => by
    simp only [Branch.allShaped, Branch.shaped, Bool.and_true] at h
    rw [Branch.renderList, Branch.renderList, List.append_nil, ← Array.toList_push]
    exact ReadsOn.branches_else (Stmt.reads_renderList body h #[])
  | .otherwise _ :: _ :: _, hord, _, _ => absurd hord Bool.false_ne_true

/-- Each statement in the parser's shape is read back as itself. -/
theorem Stmt.reads_render : (st : Stmt) → st.shaped → Reads Reader.stmt EndsStmt st.render st
  | .var _ e, h => Reads.var (Expr.reads_render e h (.bare false))
  | .func _ _ body, h => Reads.func (Stmt.reads_renderList body h #[])
  | .ret e, h => Reads.ret (Expr.reads_render e h (.bare false))
  | .ifElse t body bs, h => by
    simp only [Stmt.shaped, Bool.and_eq_true] at h
    exact Reads.ifElse (Expr.reads_render t h.1.1.1 (.bare false))
      (Stmt.reads_renderList body h.1.1.2 #[]) (Branch.reads_renderList bs h.1.2 h.2 #[])
  | .whileLoop t body, h => by
    simp only [Stmt.shaped, Bool.and_eq_true] at h
    exact Reads.whileLoop (Expr.reads_render t h.1 (.bare false))
      (Stmt.reads_renderList body h.2 #[])
  | .forRange _ a b body, h => by
    simp only [Stmt.shaped, Bool.and_eq_true] at h
    exact Reads.forRange (Expr.reads_render a h.1.1 (.bare false))
      (Expr.reads_render b h.1.2 (.bare false)) (Expr.render_first_ne (.inl rfl) a)
      (Stmt.reads_renderList body h.2 #[])
  | .expr e, h => by
    obtain ⟨k, lit, hk, ps', heq, hopen, -, hf⟩ := Expr.render_opens e (.bare true)
    exact Reads.exprStmt (Expr.reads_render e h (.bare true))
      ⟨k, lit, hk, ps', heq, (TokenKind.opensExpr_spec hopen).2.2, hf⟩

/-- Statements, read up to the brace that closes their block or the end. -/
theorem Stmt.reads_renderList : (ss : List Stmt) → Stmt.allShaped ss → (acc : Array Stmt) →
    ReadsOn (·.stmtsUntilBrace acc) AtClose (Stmt.renderList ss) (acc.toList ++ ss)
  | [], _, acc => by
    rw [List.append_nil]
    exact ReadsOn.stmts_nil acc
  | st :: ss, h, acc => by
    simp only [Stmt.allShaped, Bool.and_eq_true] at h
    have hrest := Stmt.reads_renderList ss h.2 (acc.push st)
    rw [toList_push_append] at hrest
    exact ReadsOn.stmts_cons (Stmt.reads_render st h.1) hrest (Stmt.render_opens st)
      (Stmt.renderList_opens ss)
end

/-! ## Whole programs -/

theorem throughEnd_append_eof {e : Token} (he : e.kind = .eof) :
    ∀ toks : List Token, (∀ t ∈ toks, t.kind ≠ .eof) → throughEnd (toks ++ [e]) = toks ++ [e]
  | [], _ => by simp [throughEnd, he]
  | t :: toks, h => by
    have ht := throughEnd_append_eof he toks fun u hu => h u (List.mem_cons_of_mem t hu)
    obtain ⟨u, rest, hne⟩ : ∃ u rest, toks ++ [e] = u :: rest := List.exists_cons_of_ne_nil (by simp)
    rw [List.cons_append, hne, throughEnd, if_neg (h t List.mem_cons_self), ← hne, ht]
    exact List.cons_ne_nil u rest

/-- Tokens with no end mark get one after the last. -/
theorem throughEnd_of_ne_eof : ∀ toks : List Token, (∀ t ∈ toks, t.kind ≠ .eof) →
    ∃ e, e.kind = .eof ∧ throughEnd toks = toks ++ [e]
  | [], _ => ⟨Token.eof 1 1, rfl, rfl⟩
  | t :: toks, h => by
    obtain ⟨u, rest, rfl⟩ | rfl : (∃ u rest, toks = u :: rest) ∨ toks = [] := by
      cases toks <;> simp
    · obtain ⟨e, he, heq⟩ := throughEnd_of_ne_eof (u :: rest)
        fun v hv => h v (List.mem_cons_of_mem t hv)
      refine ⟨e, he, ?_⟩
      rw [throughEnd, if_neg (h t List.mem_cons_self), heq]
      · rfl
      · exact List.cons_ne_nil u rest
    · exact ⟨Token.eof t.line t.column, rfl, by simp [throughEnd, h t List.mem_cons_self]⟩

/-- Written statements followed by the end mark are read to the end. -/
theorem Stmt.stmtsToEnd_render {e : Token} (he : e.kind = .eof) (ss : List Stmt)
    (hs : Stmt.allShaped ss) (acc : Array Stmt) (l L : Nat) :
    (⟨layout l (Stmt.renderList ss) ++ [e], L⟩ : Reader).stmtsToEnd acc = .ok (acc.toList ++ ss) := by
  induction ss generalizing acc l L with
  | nil =>
    rw [List.append_nil]
    exact stmtsToEnd_stop he
  | cons st ss ih =>
    simp only [Stmt.allShaped, Bool.and_eq_true] at hs
    obtain ⟨k, lit, hk, ps', hst, hopen⟩ := Stmt.render_opens st
    have heof : (⟨layout l (Stmt.render st ++ Stmt.renderList ss) ++ [e], L⟩ : Reader).kind ≠ .eof := by
      rw [hst]
      exact (TokenKind.opensStmt_spec hopen).2.2.2.2.2
    have hread := Stmt.reads_render st hs.1 l (layout (l + lines st.render) (Stmt.renderList ss) ++ [e]) L
      (endsStmt_before (Stmt.renderList_opens ss) (.inr he))
    rw [Stmt.renderList, stmtsToEnd_cons heof (by rw [layout_append, List.append_assoc]; exact hread),
      ← toList_push_append acc st ss]
    exact ih hs.2 _ _ _

/-- Every program in the parser's shape, written as tokens, parses to itself. -/
theorem parse_render {prog : List Stmt} (h : Stmt.allShaped prog) :
    parse (render prog) = .ok prog := by
  obtain ⟨e, he, heq⟩ := throughEnd_of_ne_eof (render prog) (layout_ne_eof 0 _)
  rw [parse, heq]
  exact Stmt.stmtsToEnd_render he prog h #[] 0 1

theorem parse_render_eof {prog : List Stmt} (h : Stmt.allShaped prog) {e : Token}
    (he : e.kind = .eof) : parse (render prog ++ [e]) = .ok prog := by
  rw [parse, throughEnd_append_eof he (render prog) (layout_ne_eof 0 _)]
  exact Stmt.stmtsToEnd_render he prog h #[] 0 1

/-- The parser gives only programs of its shape, and reads every such program back from the
tokens `render` writes for it, whether or not an end mark follows them. -/
theorem parse_round_trip :
    (∀ toks prog, parse toks = .ok prog → Stmt.allShaped prog) ∧
      ∀ prog, Stmt.allShaped prog → parse (render prog) = .ok prog ∧
        ∀ e : Token, e.kind = .eof → parse (render prog ++ [e]) = .ok prog :=
  ⟨fun _ _ h => parse_shaped h, fun _ h => ⟨parse_render h, fun _ he => parse_render_eof h he⟩⟩

/-- A loop whose bound and body begin with a minus, read back from its tokens. -/
theorem parse_round_trip_loop :
    parse (render [.forRange "i" (.number 0) (.negate (.ident "n"))
        [.expr (.negate (.call (.chain (.ident "a") [.attr "f", .index (.number 1)]) []))]]) =
      .ok [.forRange "i" (.number 0) (.negate (.ident "n"))
        [.expr (.negate (.call (.chain (.ident "a") [.attr "f", .index (.number 1)]) []))]] :=
  (parse_round_trip.2 _ (by decide)).1

end Arson.Syntax
