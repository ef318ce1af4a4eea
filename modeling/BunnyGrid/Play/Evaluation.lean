import BunnyGrid.Play.Notice

/-! The value of an expression for one bunny. Evaluation never fails: what is undefined or
malformed is zero. -/
namespace BunnyGrid

namespace Expr

/-- The value of an expression. Coordinates and variables are those of `self`, and zero if there is
no such bunny. Both sides of a connective are evaluated. -/
def eval (self : Option Bunny) : Expr → Scalar
  | literal v => v
  | coord .x => .int (self.elim 0 (·.x))
  | coord .y => .int (self.elim 0 (·.y))
  | var name => self.elim (.int 0) (·.vars.get name)
  | arith op l r => .number (Scalar.arith op (eval self l) (eval self r))
  | compare op l r => .bool (op.holds (eval self l) (eval self r))
  | logic op l r => .bool (op.apply (eval self l).truthy (eval self r).truthy)
  | not e => .bool !(eval self e).truthy
  | unknown _ => .int 0

/-- What an evaluation tells the log: expressions it skips, and comparisons of different kinds. -/
def notices (self : Option Bunny) : Expr → List Notice
  | arith _ l r | logic _ l r => notices self l ++ notices self r
  | compare _ l r =>
    let left := eval self l
    let right := eval self r
    notices self l ++ notices self r ++
      if left.sameKind right then [] else [.mixedKinds left right]
  | not e => notices self e
  | unknown raw => [.malformedExpr raw]
  | _ => []

end Expr

namespace Amount

def eval (self : Option Bunny) : Amount → Int
  | plain n => n
  | expr e => (e.eval self).toCount

def notices (self : Option Bunny) : Amount → List Notice
  | plain _ => []
  | expr e => e.notices self

end Amount
end BunnyGrid
