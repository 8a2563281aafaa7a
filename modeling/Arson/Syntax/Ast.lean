import Arson.Syntax.Token
/-! # Programs

A program is a list of statements. Expressions have one level of binary operators, grouped to the
right; calls, indexing and attribute access form chains after a primary expression.
-/
namespace Arson.Syntax

/-- The binary operators; `=` binds a name and `and`, `or` decide by their left operand. -/
inductive BinaryOp where
  | add | sub | mul | div | mod | less | lessEq | greater | greaterEq | equal | assign
  | and | or
deriving Repr, DecidableEq, Inhabited

/-- How an operator is written. -/
def BinaryOp.symbol : BinaryOp → String
  | add => "+" | sub => "-" | mul => "*" | div => "/" | mod => "%" | less => "<"
  | lessEq => "<=" | greater => ">" | greaterEq => ">=" | equal => "==" | assign => "="
  | and => "and" | or => "or"

/-- The operator that a token kind writes. -/
def BinaryOp.ofKind? : TokenKind → Option BinaryOp
  | .plus => some .add | .minus => some .sub | .times => some .mul | .divide => some .div
  | .modulo => some .mod | .lessThan => some .less | .lessEq => some .lessEq
  | .greaterThan => some .greater | .greaterEq => some .greaterEq | .equality => some .equal
  | .equal => some .assign | .keyword .andKw => some .and | .keyword .orKw => some .or
  | _ => none

mutual
/-- Expressions. -/
inductive Expr where
  | ident (name : String)
  | number (x : Float)
  | str (s : String)
  | bool (b : Bool)
  | negate (e : Expr)
  | binOp (lhs : Expr) (op : BinaryOp) (rhs : Expr)
  | call (callee : Expr) (args : List Expr)
  | array (items : List Expr)
  | dict (entries : List (String × Expr))
  | lambda (params : List String) (body : List Stmt)
  | chain (receiver : Expr) (links : List Link)

/-- One step of a chain: a call, an index or an attribute. -/
inductive Link where
  | call (args : List Expr)
  | attr (name : String)
  | index (key : Expr)

/-- The branches after the first of a conditional. -/
inductive Branch where
  | elif (test : Expr) (body : List Stmt)
  | otherwise (body : List Stmt)

/-- Statements. -/
inductive Stmt where
  | var (name : String) (value : Expr)
  | func (name : String) (params : List String) (body : List Stmt)
  | ret (value : Expr)
  | ifElse (test : Expr) (body : List Stmt) (branches : List Branch)
  | whileLoop (test : Expr) (body : List Stmt)
  | forRange (name : String) (start stop : Expr) (body : List Stmt)
  | expr (e : Expr)
end

instance : Inhabited Expr := ⟨.bool false⟩
instance : Inhabited Stmt := ⟨.expr default⟩

end Arson.Syntax
