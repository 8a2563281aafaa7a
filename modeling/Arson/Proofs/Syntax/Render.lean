import Arson.Syntax.Parser
/-!
# Writing a program as tokens

`render` writes a program as the tokens the parser reads, fixing only what the parser looks at:
each token's kind, its literal and its line. Every statement starts a new line and every other
token stays on the line of the token before it, so a `(` or `[` that opens a statement is never
read as a call or an index of the statement before.

Expressions are written bare, with parentheses only where the parser would otherwise read
something else: around an operation that is the left operand of another or what a minus negates
(operations group to the right), around an operation, a negation, a call or a chain that is
called or has links (a primary is read there), and around a negation that begins an expression
statement (a statement opening with `-` would continue the one before as a subtraction).
-/
namespace Arson.Syntax

/-- What is written: a token, by its kind and literal, or the start of a new line. A token is
never the end mark, which only the parser adds. -/
inductive Piece where
  | tok (kind : TokenKind) (literal : Literal) (notEnd : kind ≠ .eof := by decide)
  | newline

abbrev Piece.sym (k : TokenKind) (notEnd : k ≠ .eof := by decide) : Piece := .tok k .empty notEnd

/-- The token kind that writes an operator. -/
def BinaryOp.kind : BinaryOp → TokenKind
  | .add => .plus | .sub => .minus | .mul => .times | .div => .divide | .mod => .modulo
  | .less => .lessThan | .lessEq => .lessEq | .greater => .greaterThan
  | .greaterEq => .greaterEq | .equal => .equality | .assign => .equal
  | .and => .keyword .andKw | .or => .keyword .orKw

@[simp] theorem BinaryOp.ofKind?_kind (op : BinaryOp) : BinaryOp.ofKind? op.kind = some op := by
  cases op <;> rfl

theorem BinaryOp.kind_ne_eof (op : BinaryOp) : op.kind ≠ .eof := by
  cases op <;> decide

/-- Where an expression is written. -/
inductive Slot where
  /-- As a whole expression; `lead` when it begins a statement. -/
  | bare (lead : Bool)
  /-- As the left operand of an operator or what a minus negates. -/
  | operand (lead : Bool)
  /-- As a callee or the receiver of a chain. -/
  | head

namespace Slot

/-- Whether an expression written here begins a statement. -/
def lead : Slot → Bool
  | .bare l | .operand l => l
  | .head => false

def wrapsBinOp : Slot → Bool
  | .bare _ => false
  | _ => true

def wrapsNegate : Slot → Bool
  | .bare l | .operand l => l
  | .head => true

def wrapsCall : Slot → Bool
  | .head => true
  | _ => false

end Slot

def parens (ps : List Piece) : List Piece := .sym .leftParen :: ps ++ [.sym .rightParen]

def braces (ps : List Piece) : List Piece := .sym .leftBrace :: ps ++ [.sym .rightBrace]

def wrapIf (b : Bool) (ps : List Piece) : List Piece := if b then parens ps else ps

def renderNamesTail : List String → List Piece
  | [] => []
  | m :: ms => .sym .comma :: .tok .identifier (.str m) :: renderNamesTail ms

def renderNames : List String → List Piece
  | [] => []
  | n :: ns => .tok .identifier (.str n) :: renderNamesTail ns

mutual
/-- An expression written in a slot. -/
def Expr.render (s : Slot) : Expr → List Piece
  | .ident n => [.tok .identifier (.str n)]
  | .number x => [.tok .number (.number x)]
  | .str t => [.tok .string (.str t)]
  | .bool true => [.sym (.keyword .trueKw)]
  | .bool false => [.sym (.keyword .falseKw)]
  | .negate e => wrapIf s.wrapsNegate (.sym .minus :: e.render (.operand false))
  | .binOp a op b =>
    -- inside parentheses nothing begins a statement
    wrapIf s.wrapsBinOp (a.render (.operand (s.lead && !s.wrapsBinOp)) ++
      .sym op.kind op.kind_ne_eof :: b.render (.bare false))
  | .call f args =>
    wrapIf s.wrapsCall
      (f.render .head ++ .sym .leftParen :: Expr.renderList args ++ [.sym .rightParen])
  | .array items => .sym .leftBracket :: Expr.renderList items ++ [.sym .rightBracket]
  | .dict entries => .sym .leftBrace :: Expr.renderEntries entries ++ [.sym .rightBrace]
  | .lambda params body =>
    .sym (.keyword .funcKw) :: parens (renderNames params) ++ braces (Stmt.renderList body)
  | .chain r ls => wrapIf s.wrapsCall (r.render .head ++ Link.renderList ls)

def Expr.renderList : List Expr → List Piece
  | [] => []
  | e :: es => e.render (.bare false) ++ Expr.renderTail es

def Expr.renderTail : List Expr → List Piece
  | [] => []
  | e :: es => .sym .comma :: e.render (.bare false) ++ Expr.renderTail es

/-- Dict entries separated by commas. -/
def Expr.renderEntries : List (String × Expr) → List Piece
  | [] => []
  | (k, v) :: es =>
    .tok .string (.str k) :: .sym .colon :: v.render (.bare false) ++ Expr.renderEntriesTail es

/-- Dict entries, each after a comma. -/
def Expr.renderEntriesTail : List (String × Expr) → List Piece
  | [] => []
  | (k, v) :: es =>
    .sym .comma :: .tok .string (.str k) :: .sym .colon :: v.render (.bare false) ++
      Expr.renderEntriesTail es

def Link.renderList : List Link → List Piece
  | [] => []
  | .call args :: ls =>
    .sym .leftParen :: Expr.renderList args ++ .sym .rightParen :: Link.renderList ls
  | .attr n :: ls => .sym .period :: .tok .identifier (.str n) :: Link.renderList ls
  | .index k :: ls =>
    .sym .leftBracket :: k.render (.bare false) ++ .sym .rightBracket :: Link.renderList ls

def Branch.renderList : List Branch → List Piece
  | [] => []
  | .elif t body :: bs =>
    .sym (.keyword .elifKw) :: t.render (.bare false) ++ braces (Stmt.renderList body) ++
      Branch.renderList bs
  | .otherwise body :: bs =>
    .sym (.keyword .elseKw) :: braces (Stmt.renderList body) ++ Branch.renderList bs

/-- A statement, on a new line. -/
def Stmt.render : Stmt → List Piece
  | .var n e =>
    .newline :: .sym (.keyword .varKw) :: .tok .identifier (.str n) :: .sym .equal ::
      e.render (.bare false)
  | .func n params body =>
    .newline :: .sym (.keyword .funcKw) :: .tok .identifier (.str n) ::
      parens (renderNames params) ++ braces (Stmt.renderList body)
  | .ret e => .newline :: .sym (.keyword .returnKw) :: e.render (.bare false)
  | .ifElse t body bs =>
    .newline :: .sym (.keyword .ifKw) :: t.render (.bare false) ++
      braces (Stmt.renderList body) ++ Branch.renderList bs
  | .whileLoop t body =>
    .newline :: .sym (.keyword .whileKw) :: t.render (.bare false) ++
      braces (Stmt.renderList body)
  | .forRange n a b body =>
    .newline :: .sym (.keyword .forKw) :: .tok .identifier (.str n) ::
      .sym (.keyword .rangeKw) ::
      parens (a.render (.bare false) ++ .sym .comma :: b.render (.bare false)) ++
      braces (Stmt.renderList body)
  | .expr e => .newline :: e.render (.bare true)

def Stmt.renderList : List Stmt → List Piece
  | [] => []
  | s :: ss => s.render ++ Stmt.renderList ss
end

/-- The token written for a kind and a literal on a line. -/
def Token.at (k : TokenKind) (lit : Literal) (l : Nat) : Token := ⟨k, lit, "", l, 1⟩

@[simp] theorem Token.at_kind (k : TokenKind) (lit : Literal) (l : Nat) : (Token.at k lit l).kind = k :=
  rfl

@[simp] theorem Token.at_line (k : TokenKind) (lit : Literal) (l : Nat) : (Token.at k lit l).line = l :=
  rfl

/-- Tokens for pieces, the first on line `l`; a new line adds one to the line. -/
def layout : Nat → List Piece → List Token
  | _, [] => []
  | l, .newline :: ps => layout (l + 1) ps
  | l, .tok k lit _ :: ps => Token.at k lit l :: layout l ps

/-- A program as tokens, its first statement on line one. -/
def render (prog : List Stmt) : List Token := layout 0 (Stmt.renderList prog)

example : (render [.expr (.negate (.ident "x"))]).map (·.kind) =
    [.leftParen, .minus, .identifier, .rightParen] := by decide

/-! ## Lines -/

def Piece.isNewline : Piece → Bool
  | .newline => true
  | .tok .. => false

def lines (ps : List Piece) : Nat := ps.countP Piece.isNewline

@[simp] theorem lines_nil : lines [] = 0 := rfl

@[simp] theorem lines_tok_cons {k : TokenKind} {lit : Literal} {h : k ≠ .eof} (ps : List Piece) :
    lines (.tok k lit h :: ps) = lines ps := by
  simp [lines, Piece.isNewline]

@[simp] theorem lines_newline_cons (ps : List Piece) : lines (.newline :: ps) = 1 + lines ps := by
  simp only [lines, List.countP_cons, Piece.isNewline, if_true]
  omega

@[simp] theorem lines_append (ps qs : List Piece) : lines (ps ++ qs) = lines ps + lines qs := by
  simp [lines]

@[simp] theorem lines_parens (ps : List Piece) : lines (parens ps) = lines ps := by
  simp [parens]

@[simp] theorem lines_braces (ps : List Piece) : lines (braces ps) = lines ps := by
  simp [braces]

@[simp] theorem layout_nil (l : Nat) : layout l [] = [] := rfl

@[simp] theorem layout_tok_cons {k : TokenKind} {lit : Literal} {h : k ≠ .eof} (l : Nat)
    (ps : List Piece) : layout l (.tok k lit h :: ps) = Token.at k lit l :: layout l ps := rfl

@[simp] theorem layout_newline_cons (l : Nat) (ps : List Piece) :
    layout l (.newline :: ps) = layout (l + 1) ps := rfl

theorem layout_append (l : Nat) (ps qs : List Piece) :
    layout l (ps ++ qs) = layout l ps ++ layout (l + lines ps) qs := by
  induction ps generalizing l with
  | nil => rfl
  | cons p ps ih =>
    cases p with
    | tok k lit h => simp [ih]
    | newline => simp [ih, Nat.add_assoc]

theorem layout_ne_eof (l : Nat) (ps : List Piece) : ∀ t ∈ layout l ps, t.kind ≠ .eof := by
  induction ps generalizing l with
  | nil => simp
  | cons p ps ih =>
    cases p with
    | tok k lit h =>
      simp only [layout_tok_cons, List.mem_cons, forall_eq_or_imp]
      exact ⟨h, ih l⟩
    | newline => exact ih (l + 1)

end Arson.Syntax
