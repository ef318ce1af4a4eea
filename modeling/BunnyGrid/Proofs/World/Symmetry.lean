import BunnyGrid.Play.Basic
import BunnyGrid.Proofs.World.Grid
import Mathlib.Logic.Equiv.Defs

/-! Symmetries of the square, and what they do to boards and worlds. -/
namespace BunnyGrid

/-- Some cells along a facing. -/
def Direction.walk (d : Direction) (cells : Int) (c : Int × Int) : Int × Int :=
  (c.1 + d.vector.1 * cells, c.2 + d.vector.2 * cells)

/-- Left and right swapped. -/
def Direction.mirrored : Direction → Direction
  | .up => .up
  | .right => .left
  | .down => .down
  | .left => .right

def Turn.mirrored : Turn → Turn
  | .right => .left
  | .back => .back
  | .left => .right

def Jump.mirrored : Jump → Jump
  | .ahead => .ahead
  | .right => .left
  | .left => .right

/-- The turn to the side that a jump leads to. -/
def Jump.side? : Jump → Option Turn
  | .ahead => none
  | .right => some .right
  | .left => some .left

/-- A jump goes ahead, or one cell ahead and then to a side. -/
theorem Bunny.target_eq_walk (b : Bunny) (kind : Jump) (amount : Int) :
    b.target kind amount = match kind.side? with
      | none => b.facing.walk amount (b.x, b.y)
      | some t => (b.facing.turned t.quarters).walk amount (b.facing.walk 1 (b.x, b.y)) := by
  cases kind with
  | ahead => rfl
  | right | left =>
    simp only [target, Jump.side?, Direction.walk, Turn.quarters, Int.mul_one]
    rfl

/-- A symmetry of square boards: what it makes of places and facings, and of what names a side. -/
structure Symmetry where
  place : Nat → Equiv.Perm (Int × Int)
  facing : Direction → Direction
  turn : Turn → Turn
  jump : Jump → Jump
  inside : ∀ (n : Nat) (c : Int × Int),
    (0 ≤ (place n c).1 ∧ (place n c).1 < n ∧ 0 ≤ (place n c).2 ∧ (place n c).2 < n) ↔
      (0 ≤ c.1 ∧ c.1 < n ∧ 0 ≤ c.2 ∧ c.2 < n)
  walk : ∀ (n : Nat) (d : Direction) (cells : Int) (c : Int × Int),
    place n (d.walk cells c) = (facing d).walk cells (place n c)
  turned : ∀ (d : Direction) (t : Turn),
    facing (d.turned t.quarters) = (facing d).turned (turn t).quarters
  side : ∀ kind : Jump, (jump kind).side? = kind.side?.map turn

namespace Symmetry

/-- A quarter turn of the board, clockwise. -/
def quarterTurn : Symmetry where
  place n :=
    { toFun := fun c => (n - 1 - c.2, c.1)
      invFun := fun c => (c.2, n - 1 - c.1)
      left_inv := fun c => by simp
      right_inv := fun c => by simp }
  facing := Direction.clockwise
  turn := id
  jump := id
  inside n c := by
    dsimp only [Equiv.coe_fn_mk]
    omega
  walk n d cells c := by
    cases d
    all_goals
      apply Prod.ext
      · dsimp only [Equiv.coe_fn_mk, Direction.walk, Direction.vector, Direction.clockwise]
        omega
      · rfl
  turned d t := by cases d <;> cases t <;> rfl
  side kind := by cases kind <;> rfl

/-- The board with left and right swapped. -/
def mirror : Symmetry where
  place n :=
    { toFun := fun c => (n - 1 - c.1, c.2)
      invFun := fun c => (n - 1 - c.1, c.2)
      left_inv := fun c => by simp
      right_inv := fun c => by simp }
  facing := Direction.mirrored
  turn := Turn.mirrored
  jump := Jump.mirrored
  inside n c := by
    dsimp only [Equiv.coe_fn_mk]
    omega
  walk n d cells c := by
    cases d
    all_goals
      apply Prod.ext
      · dsimp only [Equiv.coe_fn_mk, Direction.walk, Direction.vector, Direction.mirrored]
        omega
      · rfl
  turned d t := by cases d <;> cases t <;> rfl
  side kind := by cases kind <;> rfl

variable (σ : Symmetry) (n : Nat)

/-- The image of a grid has at each place the cell of the place that is moved there. -/
def grid (g : Grid) : Grid where
  size := g.size
  rows := .ofFn fun y => .ofFn fun x =>
    let c := (σ.place g.size).symm ((x : Nat), (y : Nat))
    g.cell c.1 c.2

def start (s : Start) : Start :=
  let c := σ.place n (s.x, s.y)
  { x := c.1, y := c.2, facing := σ.facing s.facing }

def board (b : Board) : Board :=
  { b with
    grid := σ.grid b.grid
    first := σ.start b.grid.size b.first
    second := b.second.map (σ.start b.grid.size) }

def bunny (b : Bunny) : Bunny :=
  let c := σ.place n (b.x, b.y)
  { b with x := c.1, y := c.2, facing := σ.facing b.facing }

def world (w : World) : World :=
  { w with grid := σ.grid w.grid, bunnies := w.bunnies.map (σ.bunny w.grid.size) }

def event (e : Event) : Event :=
  let c := σ.place n (e.x, e.y)
  { e with x := c.1, y := c.2, facing := σ.facing e.facing }

section Grid

variable (g : Grid) (c : Int × Int)

@[simp] theorem grid_size : (σ.grid g).size = g.size := rfl

theorem contains_grid :
    (σ.grid g).contains (σ.place g.size c).1 (σ.place g.size c).2 = g.contains c.1 c.2 := by
  rw [Bool.eq_iff_iff, Grid.contains_iff, Grid.contains_iff, grid_size]
  exact σ.inside g.size c

/-- A place has the same cell on the image as it had before. -/
theorem cell_grid :
    (σ.grid g).cell (σ.place g.size c).1 (σ.place g.size c).2 = g.cell c.1 c.2 := by
  cases h : g.contains c.1 c.2 with
  | false =>
    have h' := (σ.contains_grid g c).trans h
    rw [Grid.cell_of_not_contains h, Grid.cell_of_not_contains h']
  | true =>
    have h' := (σ.contains_grid g c).trans h
    obtain ⟨hx, hx', hy, hy'⟩ := Grid.contains_iff.mp h'
    rw [grid_size] at hx' hy'
    have hback : (σ.place g.size).symm
        (((σ.place g.size c).1.toNat : Int), ((σ.place g.size c).2.toNat : Int)) = c := by
      rw [Int.toNat_of_nonneg hx, Int.toNat_of_nonneg hy]
      exact (σ.place g.size).symm_apply_apply c
    rw [Grid.cell_eq_getElem h' (by rw [grid_size]; omega) (by rw [grid_size]; omega)]
    simp only [grid, Vector.getElem_ofFn, hback]

/-- A cell that is put on a grid is put on its image. -/
theorem put_grid (h : g.contains c.1 c.2 = true) (cell : Cell) :
    (σ.grid g).put (σ.place g.size c).1 (σ.place g.size c).2 cell =
      σ.grid (g.put c.1 c.2 cell) := by
  have h' := (σ.contains_grid g c).trans h
  apply Grid.ext_of_cell (by simp)
  intro x y
  -- Every place of the image is the image of one.
  obtain ⟨d, hd⟩ := (σ.place g.size).surjective (x, y)
  have hx : x = (σ.place g.size d).1 := by rw [hd]
  have hy : y = (σ.place g.size d).2 := by rw [hd]
  have hleft := σ.cell_grid g d
  have hright := σ.cell_grid (g.put c.1 c.2 cell) d
  rw [Grid.put_size] at hright
  rw [hx, hy, hright, Grid.cell_put h, Grid.cell_put h', hleft]
  have hsame : ((σ.place g.size d).1 = (σ.place g.size c).1 ∧
      (σ.place g.size d).2 = (σ.place g.size c).2) ↔ d.1 = c.1 ∧ d.2 = c.2 := by
    rw [← Prod.ext_iff, ← Prod.ext_iff]
    exact (σ.place g.size).apply_eq_iff_eq
  simp only [hsame]

end Grid

/-- The image of a bunny jumps to where the place is moved that the bunny jumps to. -/
theorem target_bunny (b : Bunny) (kind : Jump) (amount : Int) :
    (σ.bunny n b).target (σ.jump kind) amount = σ.place n (b.target kind amount) := by
  have hplace : ((σ.bunny n b).x, (σ.bunny n b).y) = σ.place n (b.x, b.y) := rfl
  have hfacing : (σ.bunny n b).facing = σ.facing b.facing := rfl
  rw [Bunny.target_eq_walk, Bunny.target_eq_walk, σ.side, hplace, hfacing]
  cases kind.side? with
  | none => exact (σ.walk n b.facing amount _).symm
  | some t =>
    dsimp only [Option.map_some]
    rw [σ.walk, σ.walk, σ.turned]

/-- The image of a board starts the image of the world. -/
theorem world_ofBoard (b : Board) : World.ofBoard (σ.board b) = σ.world (.ofBoard b) := by
  have hbunny (s : Start) :
      Bunny.ofStart (σ.start b.grid.size s) = σ.bunny b.grid.size (.ofStart s) := rfl
  have hbunnies : (σ.board b).starts.map Bunny.ofStart =
      (b.starts.map Bunny.ofStart).map (σ.bunny b.grid.size) := by
    unfold Board.starts board
    cases b.second <;> simp [hbunny]
  unfold World.ofBoard world
  rw [hbunnies]
  rfl

end Symmetry
end BunnyGrid
