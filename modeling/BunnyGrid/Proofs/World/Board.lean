import BunnyGrid.World.Sample
import BunnyGrid.Proofs.World.Grid

/-! What the boards that are read from data have in common: they are square, their bunnies start on
the grid, and only strawberries are worth something. -/
namespace BunnyGrid

section Except

variable {ε α β : Type}

theorem bind_eq_ok {x : Except ε α} {f : α → Except ε β} {b : β} :
    (x >>= f) = .ok b ↔ ∃ a, x = .ok a ∧ f a = .ok b := by
  cases x <;> simp [bind, Except.bind]

theorem exists_of_mem_mapM {f : α → Except ε β} {as : List α} {bs : List β} {b : β}
    (h : as.mapM f = .ok bs) (hb : b ∈ bs) : ∃ a ∈ as, f a = .ok b := by
  induction as generalizing bs with
  | nil =>
    cases h
    cases hb
  | cons a as ih =>
    rw [List.mapM_cons, bind_eq_ok] at h
    obtain ⟨b', hf, h⟩ := h
    rw [bind_eq_ok] at h
    obtain ⟨bs', hrest, h⟩ := h
    cases h
    cases hb with
    | head => exact ⟨a, .head _, hf⟩
    | tail _ hb =>
      obtain ⟨a', ha, hf'⟩ := ih hrest hb
      exact ⟨a', .tail _ ha, hf'⟩

/-- A vector is read item by item, as its list is. -/
theorem toArray_vector_mapM {n : Nat} {f : α → Except ε β} (as : Vector α n) :
    Vector.toArray <$> as.mapM f = List.toArray <$> as.toList.mapM f := by
  rw [Vector.toArray_mapM, Array.mapM_eq_mapM_toList, Vector.toList_toArray]

theorem vector_mapM_eq_ok {n : Nat} {f : α → Except ε β} {as : Vector α n} {bs : Vector β n} :
    as.mapM f = .ok bs ↔ as.toList.mapM f = .ok bs.toList := by
  have hlist := toArray_vector_mapM (f := f) as
  cases hv : as.mapM f with
  | error e =>
    rw [hv] at hlist
    cases hl : as.toList.mapM f with
    | error e' => simp
    | ok l =>
      rw [hl] at hlist
      cases hlist
  | ok v =>
    rw [hv] at hlist
    cases hl : as.toList.mapM f with
    | error e' =>
      rw [hl] at hlist
      cases hlist
    | ok l =>
      rw [hl] at hlist
      have hvl : v.toArray = l.toArray := Except.ok.inj hlist
      have hl : v.toList = l := by
        rw [← Vector.toList_toArray, hvl]
      rw [← hl, Except.ok.injEq, Except.ok.injEq, Vector.toList_inj]

theorem exists_of_mem_vector_mapM {n : Nat} {f : α → Except ε β} {as : Vector α n}
    {bs : Vector β n} {b : β} (h : as.mapM f = .ok bs) (hb : b ∈ bs) : ∃ a ∈ as, f a = .ok b := by
  have hl := vector_mapM_eq_ok.mp h
  obtain ⟨a, ha, hf⟩ := exists_of_mem_mapM hl (Vector.mem_toList_iff.mpr hb)
  exact ⟨a, Vector.mem_toList_iff.mp ha, hf⟩

end Except

/-- A strawberry is worth something, and everything else nothing. -/
structure Cell.WellFormed (c : Cell) : Prop where
  strawberry : c.kind = .strawberry → 1 ≤ c.value
  other : c.kind ≠ .strawberry → c.value = 0

theorem Cell.wellFormed_empty : Cell.WellFormed {} := ⟨by simp, fun _ => rfl⟩

theorem Cell.ofData_wellFormed {d : Data} {c : Cell} (h : Cell.ofData d = .ok c) :
    c.WellFormed := by
  unfold Cell.ofData at h
  split at h
  · dsimp only at h
    split at h
    · split at h
      · split at h
        · cases h
          exact ⟨fun _ => ‹_›, by simp⟩
        · cases h
      · cases h
    · cases h
      exact ⟨by simp_all, fun _ => rfl⟩
    · cases h
      exact wellFormed_empty
  · cases h
    exact wellFormed_empty

theorem Start.ofData_inside {size : Nat} {d : Data} {s : Start} (h : Start.ofData size d = .ok s) :
    0 ≤ s.x ∧ s.x < size ∧ 0 ≤ s.y ∧ s.y < size := by
  unfold Start.ofData at h
  split at h
  · simp only [bind_eq_ok] at h
    obtain ⟨x, -, y, -, h⟩ := h
    split at h
    · cases h
      assumption
    · cases h
  · cases h

namespace Board

/-- A board that a game can be played on. -/
structure WellFormed (b : Board) : Prop where
  size_pos : 1 ≤ b.grid.size
  placed : ∀ s ∈ b.starts, b.grid.contains s.x s.y = true
  cells : ∀ x y, (b.grid.cell x y).WellFormed

theorem readGrid_size {size : Int} {rows : List Data} {g : Grid} (h : readGrid size rows = .ok g) :
    g.size = rows.length ∧ size = rows.length := by
  unfold readGrid at h
  dsimp only at h
  split at h
  · cases h
  · rename_i raw hraw
    rw [bind_eq_ok] at h
    obtain ⟨cells, -, h⟩ := h
    cases h
    refine ⟨rfl, ?_⟩
    split at hraw
    · assumption
    · cases hraw

theorem readGrid_cells {size : Int} {rows : List Data} {g : Grid} (h : readGrid size rows = .ok g)
    (x y : Int) : (g.cell x y).WellFormed := by
  by_cases hxy : g.contains x y = true
  · unfold readGrid at h
    dsimp only at h
    split at h
    · cases h
    · rw [bind_eq_ok] at h
      obtain ⟨cells, hcells, h⟩ := h
      cases h
      obtain ⟨row, hrow, hcell⟩ := Grid.exists_mem_rows hxy
      obtain ⟨raw, -, hraw⟩ := exists_of_mem_vector_mapM hcells hrow
      obtain ⟨d, -, hd⟩ := exists_of_mem_vector_mapM hraw hcell
      exact Cell.ofData_wellFormed hd
  · rw [Grid.cell_of_not_contains (by simpa using hxy)]
    exact Cell.wellFormed_empty

theorem readRows_list {fields : List (String × Data)} {rows : List Data}
    (h : readRows fields = .ok rows) :
    Data.field "mapData" fields = .list rows ∧ 1 ≤ rows.length := by
  unfold readRows at h
  split at h
  · cases h
    exact ⟨‹_›, by simp⟩
  · cases h

/-- A board has the size that its data gives, and as many rows. -/
theorem ofData_size {d : Data} {b : Board} (h : ofData d = .ok b) : ∃ fields rows,
    d = .record fields ∧ Data.field "mapData" fields = .list rows ∧
      b.grid.size = rows.length ∧ readSize fields rows = .ok b.grid.size := by
  unfold ofData at h
  split at h
  · unfold ofFields at h
    simp only [bind_eq_ok] at h
    obtain ⟨rows, hrows, start, -, size, hsize, grid, hgrid, first, -, second, -, limit, -, h⟩ := h
    cases h
    obtain ⟨hg, hs⟩ := readGrid_size hgrid
    refine ⟨_, rows, rfl, (readRows_list hrows).1, hg, ?_⟩
    rw [hsize, hs, hg]
  · cases h

theorem readSecond_inside {fields : List (String × Data)} {size : Nat} {second : Option Start}
    (h : readSecond fields size = .ok second) {s : Start} (hs : s ∈ second.toList) :
    0 ≤ s.x ∧ s.x < size ∧ 0 ≤ s.y ∧ s.y < size := by
  unfold readSecond at h
  dsimp only at h
  split at h
  · cases ho : Start.ofData size (Data.field "bunnyPosition2" fields) with
    | error e =>
      rw [ho] at h
      cases h
    | ok start =>
      rw [ho] at h
      cases h
      cases List.mem_singleton.mp hs
      exact Start.ofData_inside ho
  · cases h
    cases hs

theorem ofData_wellFormed {d : Data} {b : Board} (h : ofData d = .ok b) : b.WellFormed := by
  unfold ofData at h
  split at h
  · unfold ofFields at h
    simp only [bind_eq_ok] at h
    obtain ⟨rows, hrows, start, -, size, -, grid, hgrid, h⟩ := h
    obtain ⟨first, hfirst, second, hsecond, limit, -, h⟩ := h
    cases h
    refine ⟨?_, ?_, readGrid_cells hgrid⟩
    · have hg := (readGrid_size hgrid).1
      have hr := (readRows_list hrows).2
      dsimp only
      omega
    · intro s hs
      rw [Grid.contains_iff]
      rcases List.mem_cons.mp hs with rfl | hs
      · exact Start.ofData_inside hfirst
      · exact readSecond_inside hsecond hs
  · cases h

theorem bunnyCount_eq (b : Board) : b.bunnyCount = 1 ∨ b.bunnyCount = 2 := by
  unfold bunnyCount starts
  cases b.second <;> simp

/-- The least map: one empty cell and a bunny on it. -/
def leastData : Data :=
  .record [("mapData", .list [.list [.null]]),
    ("bunnyPosition", .record [("x", .int 0), ("y", .int 0)])]

def least : Board where
  grid := .blank 1
  first := ⟨0, 0, .up⟩

theorem ofData_least : ofData leastData = .ok least := by
  have hrow : Vector.mapM Cell.ofData #v[Data.null] = .ok #v[{}] := vector_mapM_eq_ok.mpr rfl
  have hrows : Vector.mapM (Vector.mapM Cell.ofData) #v[#v[Data.null]] = .ok #v[#v[{}]] := by
    rw [vector_mapM_eq_ok]
    simp [hrow, bind, pure, Except.bind, Except.pure]
  have hgrid : readGrid 1 [.list [.null]] = .ok (.blank 1) := bind_eq_ok.mpr ⟨_, hrows, rfl⟩
  show ofFields _ = _
  unfold ofFields
  simp only [bind_eq_ok]
  exact ⟨_, rfl, _, rfl, _, rfl, _, hgrid, _, rfl, _, rfl, _, rfl, rfl⟩

end Board
end BunnyGrid
