import BunnyGrid.World.Grid
import Mathlib.Algebra.BigOperators.Group.List.Basic
import Mathlib.Algebra.Ring.Int.Defs

/-! Looking up and counting the cells of a grid after one of them was replaced. -/
namespace BunnyGrid

/-- What a cell adds to the strawberries of a grid. -/
def Cell.worth (c : Cell) : Int := if c.kind = .strawberry then c.value else 0

namespace Grid

variable {g : Grid} {x y x' y' : Int}

theorem contains_iff : g.contains x y = true ↔ 0 ≤ x ∧ x < g.size ∧ 0 ≤ y ∧ y < g.size := by
  simp [contains, and_assoc]

theorem contains_congr {g' : Grid} (h : g.size = g'.size) (x y : Int) :
    g.contains x y = g'.contains x y := by
  unfold contains
  rw [h]

/-- On the grid a lookup finds a cell. -/
theorem cell_eq_getElem (h : g.contains x y = true) (hx : x.toNat < g.size)
    (hy : y.toNat < g.size) :
    g.cell x y = g.rows[y.toNat][x.toNat] := by
  unfold cell cell?
  rw [if_pos h]
  simp [hx, hy]

theorem cell_of_not_contains (h : g.contains x y = false) : g.cell x y = {} := by
  unfold cell
  rw [h]
  rfl

/-- Every cell stands in one of the rows. -/
theorem exists_mem_rows (h : g.contains x y = true) : ∃ row ∈ g.rows, g.cell x y ∈ row := by
  have hb := contains_iff.mp h
  have hx : x.toNat < g.size := by omega
  have hy : y.toNat < g.size := by omega
  refine ⟨g.rows[y.toNat], Vector.getElem_mem hy, ?_⟩
  rw [cell_eq_getElem h hx hy]
  exact Vector.getElem_mem hx

theorem length_toRows (g : Grid) : g.toRows.length = g.size := by simp [toRows]

/-- The cells of every row are cells of the grid. -/
theorem exists_cell_of_mem {g : Grid} {row : Vector Cell g.size} (hrow : row ∈ g.rows) {c : Cell}
    (hc : c ∈ row) : ∃ x y, g.cell x y = c := by
  obtain ⟨y, hy, rfl⟩ := Vector.getElem_of_mem hrow
  obtain ⟨x, hx, rfl⟩ := Vector.getElem_of_mem hc
  refine ⟨x, y, ?_⟩
  have hxy : g.contains x y = true := by
    rw [contains_iff]
    omega
  rw [cell_eq_getElem hxy (by simpa using hx) (by simpa using hy)]
  simp

@[simp] theorem put_size (g : Grid) (x y : Int) (c : Cell) : (g.put x y c).size = g.size := by
  unfold put
  split <;> rfl

theorem contains_put (g : Grid) (x y : Int) (c : Cell) (x' y' : Int) :
    (g.put x y c).contains x' y' = g.contains x' y' := contains_congr (put_size g x y c) x' y'

theorem put_eq (hx : 0 ≤ x ∧ x.toNat < g.size) (hy : 0 ≤ y ∧ y.toNat < g.size) (c : Cell) :
    g.put x y c = ⟨g.size, g.rows.set y.toNat (g.rows[y.toNat].set x.toNat c)⟩ := by
  unfold put
  rw [dif_pos hy]
  unfold put.putInRow
  rw [dif_pos hx]

/-- Only the cell that was put changes. -/
theorem cell_put (h : g.contains x y = true) (c : Cell) (x' y' : Int) :
    (g.put x y c).cell x' y' = if x' = x ∧ y' = y then c else g.cell x' y' := by
  have hb := contains_iff.mp h
  have hx : 0 ≤ x ∧ x.toNat < g.size := by omega
  have hy : 0 ≤ y ∧ y.toNat < g.size := by omega
  by_cases h' : g.contains x' y' = true
  · have hb' := contains_iff.mp h'
    have hx' : x'.toNat < g.size := by omega
    have hy' : y'.toNat < g.size := by omega
    have hput : (g.put x y c).contains x' y' = true := by rw [contains_put, h']
    rw [put_eq hx hy] at hput ⊢
    rw [cell_eq_getElem hput hx' hy', cell_eq_getElem h' hx' hy']
    simp only [Vector.getElem_set]
    by_cases hrow : y'.toNat = y.toNat
    · have hrow' : y' = y := by omega
      subst hrow'
      simp only [if_true, Vector.getElem_set]
      by_cases hcol : x'.toNat = x.toNat
      · have hcol' : x' = x := by omega
        subst hcol'
        simp
      · have hcol' : x' ≠ x := by omega
        simp [hcol', Ne.symm hcol]
    · have hrow' : y' ≠ y := by omega
      simp [hrow', Ne.symm hrow]
  · have hne : ¬ (x' = x ∧ y' = y) := by
      rintro ⟨rfl, rfl⟩
      exact h' h
    rw [if_neg hne]
    have hout : g.contains x' y' = false := by simpa using h'
    rw [cell_of_not_contains hout, cell_of_not_contains (by rw [contains_put, hout])]

/-- A grid is known by its cells. -/
theorem ext_of_cell {g' : Grid} (hsize : g'.size = g.size)
    (h : ∀ x y, g'.cell x y = g.cell x y) : g' = g := by
  obtain ⟨n, rows⟩ := g
  obtain ⟨n', rows'⟩ := g'
  dsimp only at hsize
  subst hsize
  have hrows : rows' = rows := by
    ext y hy x hx : 2
    have hc (r : Vector (Vector Cell n') n') : (⟨n', r⟩ : Grid).contains x y = true := by
      rw [contains_iff]
      dsimp only
      omega
    have hcell := h x y
    rwa [cell_eq_getElem (hc rows') hx hy, cell_eq_getElem (hc rows) hx hy] at hcell
  rw [hrows]

section Worth

/-- The rows of a grid as lists of what their cells are worth. -/
def worths (g : Grid) : List (List Int) := g.toRows.map (·.map Cell.worth)

theorem strawberries_eq_sum (g : Grid) : g.strawberries = (g.worths.map List.sum).sum := by
  have hfold : g.strawberries = (g.toRows.flatten.map Cell.worth).sum := by
    unfold strawberries List.sum
    rw [List.foldr_map]
    rfl
  rw [hfold, List.map_flatten, List.sum_flatten]
  rfl

theorem worths_put (hx : 0 ≤ x ∧ x.toNat < g.size) (hy : 0 ≤ y ∧ y.toNat < g.size) (c : Cell) :
    (g.put x y c).worths = g.worths.set y.toNat
      ((g.rows[y.toNat].toList.map Cell.worth).set x.toNat c.worth) := by
  rw [put_eq hx hy]
  simp only [worths, toRows, Vector.map_set, Vector.toList_set, List.map_set]

/-- A cell that is put counts in place of the one that was there. -/
theorem strawberries_put (h : g.contains x y = true) (c : Cell) :
    (g.put x y c).strawberries = g.strawberries - (g.cell x y).worth + c.worth := by
  have hb := contains_iff.mp h
  have hx : 0 ≤ x ∧ x.toNat < g.size := by omega
  have hy : 0 ≤ y ∧ y.toNat < g.size := by omega
  have hrow : (g.worths.map List.sum)[y.toNat]? =
      some (g.rows[y.toNat].toList.map Cell.worth).sum := by
    simp [worths, toRows, hy.2]
  obtain ⟨hlen, hrow⟩ := List.getElem?_eq_some_iff.mp hrow
  have hcell : (g.rows[y.toNat].toList.map Cell.worth)[x.toNat]? = some (g.cell x y).worth := by
    rw [cell_eq_getElem h hx.2 hy.2]
    simp [hx.2]
  obtain ⟨hlen', hcell⟩ := List.getElem?_eq_some_iff.mp hcell
  rw [strawberries_eq_sum, strawberries_eq_sum, worths_put hx hy, List.map_set, List.sum_set',
    dif_pos hlen, hrow, List.sum_set', dif_pos hlen', hcell]
  omega

end Worth

end Grid
end BunnyGrid
