import BunnyGrid.Play.Evaluation
import BunnyGrid.Proofs.World.Symmetry

/-! Programs that read no coordinate, and what symmetries of the board make of programs. -/
namespace BunnyGrid

namespace Expr

/-- Whether an expression reads no coordinate of its bunny. -/
def isCoordFree : Expr → Bool
  | coord _ => false
  | arith _ l r | compare _ l r | logic _ l r => isCoordFree l && isCoordFree r
  | not e => isCoordFree e
  | literal _ | var _ | unknown _ => true

variable {self self' : Option Bunny} {e : Expr}

/-- Without coordinates the value of an expression depends on variables alone. -/
theorem eval_of_isCoordFree (h : self'.map (·.vars) = self.map (·.vars))
    (he : e.isCoordFree = true) : e.eval self' = e.eval self := by
  induction e with
  | literal | unknown => rfl
  | coord => cases he
  | var name =>
    have hread (b? : Option Bunny) :
        eval b? (var name) = (b?.map (·.vars)).elim (.int 0) (·.get name) := by
      cases b? <;> rfl
    rw [hread, hread, h]
  | arith _ l r ihl ihr | compare _ l r ihl ihr | logic _ l r ihl ihr =>
    obtain ⟨hl, hr⟩ := Bool.and_eq_true_iff.mp he
    simp only [eval, ihl hl, ihr hr]
  | not e ih => simp only [eval, ih he]

theorem notices_of_isCoordFree (h : self'.map (·.vars) = self.map (·.vars))
    (he : e.isCoordFree = true) : e.notices self' = e.notices self := by
  induction e with
  | literal | var | unknown => rfl
  | coord => cases he
  | arith _ l r ihl ihr | logic _ l r ihl ihr =>
    obtain ⟨hl, hr⟩ := Bool.and_eq_true_iff.mp he
    simp only [notices, ihl hl, ihr hr]
  | compare _ l r ihl ihr =>
    obtain ⟨hl, hr⟩ := Bool.and_eq_true_iff.mp he
    simp only [notices, ihl hl, ihr hr, eval_of_isCoordFree h hl, eval_of_isCoordFree h hr]
  | not e ih => exact ih he

end Expr

namespace Amount

def isCoordFree : Amount → Bool
  | plain _ => true
  | expr e => e.isCoordFree

variable {self self' : Option Bunny} {amount : Amount}

theorem eval_of_isCoordFree (h : self'.map (·.vars) = self.map (·.vars))
    (ha : amount.isCoordFree = true) : amount.eval self' = amount.eval self := by
  cases amount with
  | plain n => rfl
  | expr e => exact congrArg Scalar.toCount (Expr.eval_of_isCoordFree h ha)

theorem notices_of_isCoordFree (h : self'.map (·.vars) = self.map (·.vars))
    (ha : amount.isCoordFree = true) : amount.notices self' = amount.notices self := by
  cases amount with
  | plain n => rfl
  | expr e => exact Expr.notices_of_isCoordFree h ha

end Amount

/-- Whether no expression of an action reads a coordinate. -/
def Action.isCoordFree : Action → Bool
  | jump _ amount => amount.isCoordFree
  | turn _ => true
  | setVar _ value => value.isCoordFree
  | changeVar _ delta => delta.isCoordFree

namespace Block

mutual

/-- Whether no expression of a block, nested ones among them, reads a coordinate. -/
def isCoordFree : Block → Bool
  | act action => action.isCoordFree
  | branch condition yes no => condition.isCoordFree && (areCoordFree yes && areCoordFree no)
  | whileLoop condition body => condition.isCoordFree && areCoordFree body
  | repeatLoop times body => times.isCoordFree && areCoordFree body
  | unknown _ _ => true

def areCoordFree : List Block → Bool
  | [] => true
  | b :: rest => isCoordFree b && areCoordFree rest

end

theorem isCoordFree_of_mem {bs : List Block} (h : areCoordFree bs = true) :
    ∀ b ∈ bs, b.isCoordFree = true := by
  induction bs with
  | nil => exact nofun
  | cons b rest ih =>
    obtain ⟨hb, hrest⟩ := Bool.and_eq_true_iff.mp h
    exact List.forall_mem_cons.mpr ⟨hb, ih hrest⟩

end Block

namespace Symmetry

variable (σ : Symmetry)

def action : Action → Action
  | .jump kind amount => .jump (σ.jump kind) amount
  | .turn t => .turn (σ.turn t)
  | .setVar name value => .setVar name value
  | .changeVar name delta => .changeVar name delta

mutual

/-- A block with all its turns and jumps, nested ones among them, moved along. -/
def block : Block → Block
  | .act action => .act (σ.action action)
  | .branch condition yes no => .branch condition (blocks yes) (blocks no)
  | .whileLoop condition body => .whileLoop condition (blocks body)
  | .repeatLoop times body => .repeatLoop times (blocks body)
  | .unknown kind raw => .unknown kind raw

def blocks : List Block → List Block
  | [] => []
  | b :: rest => block b :: blocks rest

end

theorem blocks_eq_map (bs : List Block) : σ.blocks bs = bs.map σ.block := by
  induction bs with
  | nil => rfl
  | cons b rest ih => rw [blocks, ih, List.map_cons]

theorem blocks_isEmpty (bs : List Block) : (σ.blocks bs).isEmpty = bs.isEmpty := by
  cases bs <;> rfl

mutual

theorem count_block (b : Block) : (σ.block b).count = b.count := by
  cases b with
  | act | unknown => rfl
  | branch _ yes no => simp only [block, Block.count, count_blocks yes, count_blocks no]
  | whileLoop _ body | repeatLoop _ body => simp only [block, Block.count, count_blocks body]

/-- The image of a program has as many blocks. -/
theorem count_blocks (bs : List Block) : Block.countAll (σ.blocks bs) = Block.countAll bs := by
  cases bs with
  | nil => rfl
  | cons b rest => simp only [blocks, Block.countAll, count_block b, count_blocks rest]

end

theorem quarterTurn_action (a : Action) : quarterTurn.action a = a := by
  cases a <;> rfl

mutual

theorem quarterTurn_block (b : Block) : quarterTurn.block b = b := by
  cases b with
  | act a => rw [block, quarterTurn_action]
  | branch _ yes no => rw [block, quarterTurn_blocks yes, quarterTurn_blocks no]
  | whileLoop _ body | repeatLoop _ body => rw [block, quarterTurn_blocks body]
  | unknown => rfl

/-- Programs name sides as seen by the bunny, so a quarter turn leaves them as they are. -/
theorem quarterTurn_blocks (bs : List Block) : quarterTurn.blocks bs = bs := by
  cases bs with
  | nil => rfl
  | cons b rest => rw [blocks, quarterTurn_block b, quarterTurn_blocks rest]

end

end Symmetry
end BunnyGrid
