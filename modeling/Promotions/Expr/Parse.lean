import Promotions.Expr.Basic
import Promotions.Token.Basic

/-!
# From tokens to an expression

The grammar, from the loosest operator to the tightest:

    or         := and ("or" and)*
    and        := not ("and" not)*
    not        := "not" not | comparison
    comparison := primary (COMPARATOR primary)?
    primary    := "true" | "false" | NUMBER | STRING | "(" or ")"
                | IDENT ("." IDENT)* ("(" (or ("," or)*)? ")")?

Tokens are read one by one, each of them once. What has been read and still waits for an operand is
a stack of frames, innermost first. A frame leaves the stack as soon as a token ends its operand.

Two things are held to the limit: the depth of every tree that an operator or a call makes, and
the number of constructs that are open at once.
-/

namespace Promotions

/-! ## Errors -/

namespace ParseError

inductive Expected where
  | expression
  | rightParen
  | commaOrRightParen
  | endOfInput
deriving DecidableEq

def Expected.describe : Expected → String
  | expression => "expression"
  | rightParen => "')'"
  | commaOrRightParen => "',' or ')'"
  | endOfInput => "end of input"

end ParseError

inductive ParseError where
  | unexpectedToken (expected : ParseError.Expected) (found : Token)
  | expectedIdentifier (found : Token)
  /-- A second comparator after a comparison, at byte `offset`. -/
  | chainedComparison (op : Comparator) (offset : Nat)
  | tooDeep (limit : Nat)
deriving DecidableEq

def ParseError.message : ParseError → String
  | unexpectedToken expected found =>
    s!"parse error: expected {expected.describe}, found {found.kind.describe} " ++
      s!"at offset {found.offset}"
  | expectedIdentifier found =>
    s!"parse error: expected identifier after '.', found {found.kind.describe} " ++
      s!"at offset {found.offset}"
  | chainedComparison op offset =>
    s!"parse error: comparisons do not chain, found a second '{op.sign}' at offset {offset}; " ++
      "combine them with 'and'"
  | tooDeep limit => s!"parse error: expression nesting exceeds the limit of {limit}"

namespace Parse

/-! ## Frames -/

/-- A construct whose last operand is still being read. -/
inductive Frame where
  | or (left : Expr)
  | and (left : Expr)
  | not
  | compare (op : Comparator) (left : Expr)
  | group
  | call (name : String) (args : List Expr)

namespace Frame

/-- The tree when the operand ends the construct. A group leaves no node. -/
def plug (e : Expr) : Frame → Expr
  | or left => .or left e
  | and left => .and left e
  | not => .not e
  | compare op left => .compare op left e
  | group => e
  | call name args => .call name (args ++ [e])

/-- How tightly the construct holds its operand. Only a bracket or a comma ends a bracket. -/
def strength : Frame → Nat
  | group | call _ _ => 0
  | or _ => 1
  | and _ => 2
  | not => 3
  | compare _ _ => 4

/-- Whether the construct counts as open: a bracket or a `not`. -/
def isOpening : Frame → Bool
  | not | group | call _ _ => true
  | _ => false

/-- The tree of the ended construct, if it is not too deep. -/
def close (limit : Nat) (f : Frame) (e : Expr) : Except ParseError Expr :=
  if (f.plug e).depth ≤ limit then .ok (f.plug e) else .error (.tooDeep limit)

end Frame

/-- Ends all constructs from the top of the stack that hold at least as tightly as `strength`. -/
def reduce (limit strength : Nat) : List Frame → Expr → Except ParseError (List Frame × Expr)
  | [], e => .ok ([], e)
  | f :: stack, e =>
    if strength ≤ f.strength then
      match f.close limit e with
      | .ok e => reduce limit strength stack e
      | .error err => .error err
    else .ok (f :: stack, e)

/-! ## States -/

/-- What has been read, by what may follow. -/
inductive State where
  /-- An operand must follow. -/
  | operand (stack : List Frame)
  | name (stack : List Frame) (segments : List String)
  /-- A dot after the segments of a name has been read. -/
  | dot (stack : List Frame) (segments : List String)
  | complete (stack : List Frame) (e : Expr)
  /-- The expression and the end of input have been read. -/
  | accepted (e : Expr)

/-- An operand must follow a new construct on top of the stack, if not too many are open. -/
def enter (limit : Nat) (stack : List Frame) : Except ParseError State :=
  if stack.countP Frame.isOpening ≤ limit then .ok (.operand stack) else .error (.tooDeep limit)

def startOperand (limit : Nat) (stack : List Frame) (t : Token) : Except ParseError State :=
  match t.kind, stack with
  | .true, _ => .ok (.complete stack (.bool true))
  | .false, _ => .ok (.complete stack (.bool false))
  | .number n, _ => .ok (.complete stack (.number n))
  | .string s, _ => .ok (.complete stack (.string s))
  | .ident segment, _ => .ok (.name stack [segment])
  | .leftParen, _ => enter limit (.group :: stack)
  | .not, .compare _ _ :: _ => .error (.unexpectedToken .expression t)
  | .not, _ => enter limit (.not :: stack)
  | .rightParen, .call name [] :: outer => .ok (.complete outer (.call name []))
  | _, _ => .error (.unexpectedToken .expression t)

/-- A token that ends all operators around `e`, up to the innermost bracket. -/
def endOperators (stack : List Frame) (limit : Nat) (e : Expr) (t : Token) :
    Except ParseError State :=
  match stack with
  | [] =>
    if t.kind = .endOfInput then .ok (.accepted e)
    else .error (.unexpectedToken .endOfInput t)
  | f :: outer => do
    let whole ← f.close limit e
    match f, t.kind with
    | _, .rightParen => .ok (.complete outer whole)
    | .call name args, .comma => .ok (.operand (.call name (args ++ [e]) :: outer))
    | .call _ _, _ => .error (.unexpectedToken .commaOrRightParen t)
    | _, _ => .error (.unexpectedToken .rightParen t)

def afterOperand (limit : Nat) (stack : List Frame) (e : Expr) (t : Token) :
    Except ParseError State :=
  match t.kind with
  | .compare op =>
    match stack with
    | .compare _ _ :: _ => .error (.chainedComparison op t.offset)
    | _ => .ok (.operand (.compare op e :: stack))
  | .and => do
    let (stack, e) ← reduce limit 2 stack e
    return .operand (.and e :: stack)
  | .or => do
    let (stack, e) ← reduce limit 1 stack e
    return .operand (.or e :: stack)
  | _ => do
    let (stack, e) ← reduce limit 1 stack e
    endOperators stack limit e t

/-- Reads one token. Nothing is read after the end of input. -/
def step (limit : Nat) (state : State) (t : Token) : Except ParseError State :=
  match state with
  | .operand stack => startOperand limit stack t
  | .name stack segments =>
    match t.kind with
    | .dot => .ok (.dot stack segments)
    | .leftParen => enter limit (.call (Path.ofSegments segments).text [] :: stack)
    | _ => afterOperand limit stack (.var (.ofSegments segments)) t
  | .dot stack segments =>
    match t.kind with
    | .ident segment => .ok (.name stack (segments ++ [segment]))
    | _ => .error (.expectedIdentifier t)
  | .complete stack e => afterOperand limit stack e t
  | .accepted e => .ok (.accepted e)

def run (limit : Nat) (state : State) (tokens : List Token) : Except ParseError State :=
  tokens.foldlM (step limit) state

end Parse

/-! ## The whole token list -/

/--
The expression that the tokens stand for. The last token is read again and again once all are read.
An opening token that is read for ever goes too deep, and all others fail or end
within as many readings as there are tokens.
-/
def Expr.ofTokens (limit : Nat) (tokens : List Token) : Except ParseError Expr :=
  let last := tokens.getLastD ⟨.endOfInput, 0⟩
  match Parse.run limit (.operand []) (tokens ++ List.replicate (tokens.length + 1) last) with
  | .ok (.accepted e) => .ok e
  | .ok _ => .error (.tooDeep limit)
  | .error err => .error err

end Promotions
