import Arson.Syntax.Ast
/-! # The parser

Recursive descent over a token list that ends in one end mark; what follows the first end mark is
never read. Every parse of a statement or an expression takes at least one token, which is what
makes the descent end: the measure is the number of tokens left, then the rank of the rule.
A `(` or `[` continues a chain only on the line of the token before it.
-/
namespace Arson.Syntax

/-- Why a token list is not a program. -/
inductive ParseError where
  /-- Something else was needed where this token stands. -/
  | expected (what : String) (found : Token)
  | numberWithoutValue (tok : Token)
  | reserved (tok : Token)
  /-- A `for` range with other than two bounds. -/
  | rangeBounds (count : Nat) (forTok : Token)
deriving Repr

namespace ParseError

/-- The message of a parse fault. -/
def message : ParseError → String
  | .expected what t =>
    "Expected " ++ what ++ " but got " ++
      (if t.kind = .eof then "end of input" else t.kind.name ++ " '" ++ t.lexeme ++ "'")
  | .numberWithoutValue t => "Number token '" ++ t.lexeme ++ "' carries no value"
  | .reserved t => "Reserved keyword '" ++ t.lexeme ++ "' is not supported"
  | .rangeBounds n _ => "A for range takes exactly 2 expressions, got " ++ toString n

/-- The token that a parse fault points at. -/
def token : ParseError → Token
  | .expected _ t | .numberWithoutValue t | .reserved t | .rangeBounds _ t => t

/-- The help that comes with a parse fault. -/
def help : ParseError → Option String
  | .rangeBounds _ _ => some "write the range as (start, end); end is exclusive"
  | _ => none

end ParseError

/-- The parser's place: the tokens not taken yet, the current one first, and the line of the last
token taken. -/
structure Reader where
  toks : List Token
  lastLine : Nat

namespace Reader

/-- The current token; an empty list reads as an end mark. -/
def peek (r : Reader) : Token := r.toks.headD (Token.eof 1 1)

def kind (r : Reader) : TokenKind := r.peek.kind

/-- The kind of the token after the current one, or of the last token when there is none. -/
def nextKind (r : Reader) : TokenKind :=
  match r.toks with
  | _ :: t :: _ => t.kind
  | _ => .eof

/-- A reader that is shorter than `r`. -/
abbrev Past (r : Reader) := {s : Reader // s.toks.length < r.toks.length}

/-- A reader that is not longer than `r`. -/
abbrev Upto (r : Reader) := {s : Reader // s.toks.length ≤ r.toks.length}

/-- Takes the current token if it has the wanted kind; the end mark is never taken. -/
def eat (r : Reader) (k : TokenKind) : Except ParseError (Token × r.Past) :=
  match h : r.toks with
  | t :: rest =>
    if t.kind = k ∧ k ≠ .eof then .ok (t, ⟨⟨rest, t.line⟩, by simp [h]⟩)
    else .error (.expected k.name r.peek)
  | [] => .error (.expected k.name r.peek)

def eatName (r : Reader) : Except ParseError (String × r.Past) := do
  let (t, s) ← r.eat .identifier
  pure (t.text, s)

/-- Names separated by commas, possibly none. -/
def nameListTail (r : Reader) (acc : Array String) : Except ParseError (List String × r.Upto) :=
  if r.kind = .comma then
    match r.eat .comma with
    | .error e => .error e
    | .ok (_, ⟨r1, h1⟩) =>
      match r1.eatName with
      | .error e => .error e
      | .ok (n, ⟨r2, h2⟩) =>
        match nameListTail r2 (acc.push n) with
        | .error e => .error e
        | .ok (ns, ⟨r3, h3⟩) => .ok (ns, ⟨r3, by omega⟩)
  else .ok (acc.toList, ⟨r, Nat.le_refl _⟩)
termination_by r.toks.length

/-- A possibly empty list of names separated by commas. -/
def nameList (r : Reader) : Except ParseError (List String × r.Upto) :=
  if r.kind = .identifier then
    match r.eatName with
    | .error e => .error e
    | .ok (n, ⟨r1, h1⟩) =>
      match nameListTail r1 #[n] with
      | .error e => .error e
      | .ok (ns, ⟨r2, h2⟩) => .ok (ns, ⟨r2, by omega⟩)
  else .ok ([], ⟨r, Nat.le_refl _⟩)

/-- The expression a chain of links makes of a primary: itself, a call, or a chain. -/
def chainOf (e : Expr) : List Link → Expr
  | [] => e
  | [.call args] => .call e args
  | links => .chain e links

mutual

/-- A statement. -/
def stmt (r : Reader) : Except ParseError (Stmt × r.Past) :=
  match r.kind with
  | .keyword .varKw => do
    let (_, ⟨r1, h1⟩) ← r.eat (.keyword .varKw)
    let (name, ⟨r2, h2⟩) ← r1.eatName
    let (_, ⟨r3, h3⟩) ← r2.eat .equal
    let (e, ⟨r4, h4⟩) ← expr r3
    pure (.var name e, ⟨r4, by omega⟩)
  | .keyword .funcKw =>
    if r.nextKind = .identifier then do
      let (_, ⟨r1, h1⟩) ← r.eat (.keyword .funcKw)
      let (name, ⟨r2, h2⟩) ← r1.eatName
      let (_, ⟨r3, h3⟩) ← r2.eat .leftParen
      let (params, ⟨r4, h4⟩) ← r3.nameList
      let (_, ⟨r5, h5⟩) ← r4.eat .rightParen
      let (body, ⟨r6, h6⟩) ← block r5
      pure (.func name params body, ⟨r6, by omega⟩)
    else do
      let (e, ⟨r1, h1⟩) ← expr r
      pure (.expr e, ⟨r1, h1⟩)
  | .keyword .returnKw => do
    let (_, ⟨r1, h1⟩) ← r.eat (.keyword .returnKw)
    let (e, ⟨r2, h2⟩) ← expr r1
    pure (.ret e, ⟨r2, by omega⟩)
  | .keyword .ifKw => do
    let (_, ⟨r1, h1⟩) ← r.eat (.keyword .ifKw)
    let (test, ⟨r2, h2⟩) ← expr r1
    let (body, ⟨r3, h3⟩) ← block r2
    let (branches, ⟨r4, h4⟩) ← elifs r3 #[]
    pure (.ifElse test body branches, ⟨r4, by omega⟩)
  | .keyword .whileKw => do
    let (_, ⟨r1, h1⟩) ← r.eat (.keyword .whileKw)
    let (test, ⟨r2, h2⟩) ← expr r1
    let (body, ⟨r3, h3⟩) ← block r2
    pure (.whileLoop test body, ⟨r3, by omega⟩)
  | .keyword .forKw => do
    let (forTok, ⟨r1, h1⟩) ← r.eat (.keyword .forKw)
    let (name, ⟨r2, h2⟩) ← r1.eatName
    let (_, ⟨r3, h3⟩) ← r2.eat (.keyword .rangeKw)
    let (_, ⟨r4, h4⟩) ← r3.eat .leftParen
    let (bounds, ⟨r5, h5⟩) ← exprList r4 .rightParen
    let (_, ⟨r6, h6⟩) ← r5.eat .rightParen
    match bounds with
    | [start, stop] =>
      let (body, ⟨r7, h7⟩) ← block r6
      pure (.forRange name start stop body, ⟨r7, by omega⟩)
    | _ => throw (.rangeBounds bounds.length forTok)
  | _ => do
    let (e, ⟨r1, h1⟩) ← expr r
    pure (.expr e, ⟨r1, h1⟩)
termination_by r.toks.length * 16 + 10

/-- `elif` branches, then at most one `else`. -/
def elifs (r : Reader) (acc : Array Branch) : Except ParseError (List Branch × r.Upto) :=
  match r.kind with
  | .keyword .elifKw => do
    let (_, ⟨r1, h1⟩) ← r.eat (.keyword .elifKw)
    let (test, ⟨r2, h2⟩) ← expr r1
    let (body, ⟨r3, h3⟩) ← block r2
    let (rest, ⟨r4, h4⟩) ← elifs r3 (acc.push (.elif test body))
    pure (rest, ⟨r4, by omega⟩)
  | .keyword .elseKw => do
    let (_, ⟨r1, h1⟩) ← r.eat (.keyword .elseKw)
    let (body, ⟨r2, h2⟩) ← block r1
    pure ((acc.push (.otherwise body)).toList, ⟨r2, by omega⟩)
  | _ => pure (acc.toList, ⟨r, Nat.le_refl _⟩)
termination_by r.toks.length * 16 + 11

/-- A block: `{`, statements, `}`. -/
def block (r : Reader) : Except ParseError (List Stmt × r.Past) := do
  let (_, ⟨r1, h1⟩) ← r.eat .leftBrace
  let (body, ⟨r2, h2⟩) ← stmtsUntilBrace r1 #[]
  let (_, ⟨r3, h3⟩) ← r2.eat .rightBrace
  pure (body, ⟨r3, by omega⟩)
termination_by r.toks.length * 16 + 13

/-- Statements up to a `}` or the end mark. -/
def stmtsUntilBrace (r : Reader) (acc : Array Stmt) : Except ParseError (List Stmt × r.Upto) :=
  if r.kind = .rightBrace ∨ r.kind = .eof then pure (acc.toList, ⟨r, Nat.le_refl _⟩)
  else do
    let (s, ⟨r1, h1⟩) ← stmt r
    let (rest, ⟨r2, h2⟩) ← stmtsUntilBrace r1 (acc.push s)
    pure (rest, ⟨r2, by omega⟩)
termination_by r.toks.length * 16 + 12

/-- An expression: a chain, then optionally an operator and a whole expression. -/
def expr (r : Reader) : Except ParseError (Expr × r.Past) := do
  let (lhs, ⟨r1, h1⟩) ← chain r
  match BinaryOp.ofKind? r1.kind with
  | some op =>
    let (_, ⟨r2, h2⟩) ← r1.eat r1.kind
    let (rhs, ⟨r3, h3⟩) ← expr r2
    pure (.binOp lhs op rhs, ⟨r3, by omega⟩)
  | none => pure (lhs, ⟨r1, h1⟩)
termination_by r.toks.length * 16 + 8

/-- A primary expression and the links that follow it. -/
def chain (r : Reader) : Except ParseError (Expr × r.Past) := do
  let (e, ⟨r1, h1⟩) ← primary r
  let (ls, ⟨r2, h2⟩) ← links r1 #[]
  pure (chainOf e ls, ⟨r2, by omega⟩)
termination_by r.toks.length * 16 + 6

/-- Links: `(args)` and `[index]` on the line of the token before them, and `.name`. -/
def links (r : Reader) (acc : Array Link) : Except ParseError (List Link × r.Upto) :=
  let sameLine := r.peek.line = r.lastLine
  match r.kind with
  | .leftParen =>
    if sameLine then do
      let (_, ⟨r1, h1⟩) ← r.eat .leftParen
      let (args, ⟨r2, h2⟩) ← exprList r1 .rightParen
      let (_, ⟨r3, h3⟩) ← r2.eat .rightParen
      let (rest, ⟨r4, h4⟩) ← links r3 (acc.push (.call args))
      pure (rest, ⟨r4, by omega⟩)
    else pure (acc.toList, ⟨r, Nat.le_refl _⟩)
  | .leftBracket =>
    if sameLine then do
      let (_, ⟨r1, h1⟩) ← r.eat .leftBracket
      let (key, ⟨r2, h2⟩) ← expr r1
      let (_, ⟨r3, h3⟩) ← r2.eat .rightBracket
      let (rest, ⟨r4, h4⟩) ← links r3 (acc.push (.index key))
      pure (rest, ⟨r4, by omega⟩)
    else pure (acc.toList, ⟨r, Nat.le_refl _⟩)
  | .period => do
    let (_, ⟨r1, h1⟩) ← r.eat .period
    let (name, ⟨r2, h2⟩) ← r1.eatName
    let (rest, ⟨r3, h3⟩) ← links r2 (acc.push (.attr name))
    pure (rest, ⟨r3, by omega⟩)
  | _ => pure (acc.toList, ⟨r, Nat.le_refl _⟩)
termination_by r.toks.length * 16 + 5

/-- A primary expression. -/
def primary (r : Reader) : Except ParseError (Expr × r.Past) :=
  let t := r.peek
  match t.kind with
  | .keyword .callKw => do
    let (_, ⟨r1, h1⟩) ← r.eat t.kind
    let (e, ⟨r2, h2⟩) ← primary r1
    pure (e, ⟨r2, by omega⟩)
  | .identifier => do
    let (_, s) ← r.eat t.kind
    pure (.ident t.text, s)
  | .number => do
    let (_, s) ← r.eat t.kind
    match t.literal with
    | .number x => pure (.number x, s)
    | _ => throw (.numberWithoutValue t)
  | .string => do
    let (_, s) ← r.eat t.kind
    pure (.str t.text, s)
  | .keyword .trueKw => do
    let (_, s) ← r.eat t.kind
    pure (.bool true, s)
  | .keyword .falseKw => do
    let (_, s) ← r.eat t.kind
    pure (.bool false, s)
  | .minus => do
    let (_, ⟨r1, h1⟩) ← r.eat t.kind
    let (e, ⟨r2, h2⟩) ← chain r1
    pure (.negate e, ⟨r2, by omega⟩)
  | .keyword .funcKw => do
    let (_, ⟨r1, h1⟩) ← r.eat t.kind
    let (_, ⟨r2, h2⟩) ← r1.eat .leftParen
    let (params, ⟨r3, h3⟩) ← r2.nameList
    let (_, ⟨r4, h4⟩) ← r3.eat .rightParen
    let (body, ⟨r5, h5⟩) ← block r4
    pure (.lambda params body, ⟨r5, by omega⟩)
  | .leftParen => do
    let (_, ⟨r1, h1⟩) ← r.eat t.kind
    let (e, ⟨r2, h2⟩) ← expr r1
    let (_, ⟨r3, h3⟩) ← r2.eat .rightParen
    pure (e, ⟨r3, by omega⟩)
  | .leftBracket => do
    let (_, ⟨r1, h1⟩) ← r.eat t.kind
    let (items, ⟨r2, h2⟩) ← exprList r1 .rightBracket
    let (_, ⟨r3, h3⟩) ← r2.eat .rightBracket
    pure (.array items, ⟨r3, by omega⟩)
  | .leftBrace => do
    let (_, ⟨r1, h1⟩) ← r.eat t.kind
    let (entries, ⟨r2, h2⟩) ← dictEntries r1 #[]
    let (_, ⟨r3, h3⟩) ← r2.eat .rightBrace
    pure (.dict entries, ⟨r3, by omega⟩)
  | .keyword k =>
    if k.isReserved then throw (.reserved t) else throw (.expected "expression" t)
  | _ => throw (.expected "expression" t)
termination_by r.toks.length * 16 + 4

/-- Expressions separated by commas, stopping before a closing token. -/
def exprList (r : Reader) (closing : TokenKind) : Except ParseError (List Expr × r.Upto) :=
  if r.kind = closing then pure ([], ⟨r, Nat.le_refl _⟩)
  else do
    let (e, ⟨r1, h1⟩) ← expr r
    let (rest, ⟨r2, h2⟩) ← exprListTail r1 #[e]
    pure (rest, ⟨r2, by omega⟩)
termination_by r.toks.length * 16 + 9

/-- More expressions, each after a comma. -/
def exprListTail (r : Reader) (acc : Array Expr) : Except ParseError (List Expr × r.Upto) :=
  if r.kind = .comma then do
    let (_, ⟨r1, h1⟩) ← r.eat .comma
    let (e, ⟨r2, h2⟩) ← expr r1
    let (rest, ⟨r3, h3⟩) ← exprListTail r2 (acc.push e)
    pure (rest, ⟨r3, by omega⟩)
  else pure (acc.toList, ⟨r, Nat.le_refl _⟩)
termination_by r.toks.length * 16 + 9

/-- Dict entries `"key": value`, separated by commas, a trailing comma allowed. -/
def dictEntries (r : Reader) (acc : Array (String × Expr)) :
    Except ParseError (List (String × Expr) × r.Upto) :=
  if r.kind = .rightBrace then pure (acc.toList, ⟨r, Nat.le_refl _⟩)
  else do
    let (keyTok, ⟨r1, h1⟩) ← r.eat .string
    let (_, ⟨r2, h2⟩) ← r1.eat .colon
    let (value, ⟨r3, h3⟩) ← expr r2
    let acc := acc.push (keyTok.text, value)
    if r3.kind = .rightBrace then pure (acc.toList, ⟨r3, by omega⟩)
    else do
      let (_, ⟨r4, h4⟩) ← r3.eat .comma
      let (rest, ⟨r5, h5⟩) ← dictEntries r4 acc
      pure (rest, ⟨r5, by omega⟩)
termination_by r.toks.length * 16 + 7

end

/-- Statements up to the end mark. -/
def stmtsToEnd (r : Reader) (acc : Array Stmt) : Except ParseError (List Stmt) :=
  if r.kind = .eof then pure acc.toList
  else do
    let (s, ⟨r1, _⟩) ← stmt r
    stmtsToEnd r1 (acc.push s)
termination_by r.toks.length

end Reader

/-- The tokens up to and including the first end mark; without one, an end mark is added at the
last token's position, or at 1:1 for no tokens. -/
def throughEnd : List Token → List Token
  | [] => [Token.eof 1 1]
  | [t] => if t.kind = .eof then [t] else [t, Token.eof t.line t.column]
  | t :: rest => if t.kind = .eof then [t] else t :: throughEnd rest

/-- Parses a token list into a program. -/
def parse (toks : List Token) : Except ParseError (List Stmt) :=
  Reader.stmtsToEnd ⟨throughEnd toks, 1⟩ #[]

end Arson.Syntax
