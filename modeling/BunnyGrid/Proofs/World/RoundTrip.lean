import Mathlib
import BunnyGrid.Proofs.World.Board

/-! Boards that are written as data and read back. Every board that a game can be played on comes
back whole, but for a block limit of zero, which reads as one that is not given. -/
namespace BunnyGrid

/-- What is written item by item is read back item by item. -/
theorem mapM_map_eq_pure {m : Type → Type} [Monad m] [LawfulMonad m] {α β : Type} {f : β → m α}
    {g : α → β} {as : List α} (h : ∀ a ∈ as, f (g a) = pure a) : (as.map g).mapM f = pure as := by
  induction as with
  | nil => rfl
  | cons a as ih =>
    have hrest := ih fun a ha => h a (.tail _ ha)
    rw [List.map_cons, List.mapM_cons, h a (.head _), hrest, pure_bind, pure_bind]

theorem CellKind.ofName?_smalls_name (kind : CellKind) :
    ofName? (Text.smalls kind.name) = some kind := by
  cases kind <;> decide +kernel

theorem Direction.ofName?_smalls_name (d : Direction) :
    ofName? (Text.smalls d.name) = some d := by
  cases d <;> decide +kernel

/-- How a cell that was written is read. -/
theorem Cell.ofData_written (kind : CellKind) (value : Int) : ofData (toData ⟨kind, value⟩) =
    match CellKind.ofName? (Text.smalls kind.name) with
    | some .strawberry =>
      if 1 ≤ value then .ok ⟨.strawberry, value⟩ else .error (.badStrawberry (.int value))
    | some kind => .ok { kind }
    | none => .ok {} := rfl

theorem Cell.ofData_toData {c : Cell} (h : c.WellFormed) : ofData c.toData = .ok c := by
  obtain ⟨kind, value⟩ := c
  rw [ofData_written, CellKind.ofName?_smalls_name]
  by_cases hk : kind = .strawberry
  · subst hk
    have hvalue : 1 ≤ value := h.strawberry rfl
    dsimp only
    rw [if_pos hvalue]
  · have hvalue : value = 0 := h.other hk
    rw [hvalue]
    cases kind with
    | strawberry => exact absurd rfl hk
    | empty | stone | puddle => rfl

theorem Start.ofData_toData {size : Nat} {s : Start}
    (h : 0 ≤ s.x ∧ s.x < size ∧ 0 ≤ s.y ∧ s.y < size) : ofData size s.toData = .ok s := by
  have hread : ofData size s.toData =
      if 0 ≤ s.x ∧ s.x < size ∧ 0 ≤ s.y ∧ s.y < size then
        .ok ⟨s.x, s.y, (Direction.ofName? (Text.smalls s.facing.name)).getD .up⟩
      else .error (.startOutside s.x s.y size) := rfl
  rw [hread, if_pos h, Direction.ofName?_smalls_name]
  rfl

namespace Grid

theorem square?_toList {α : Type} {n : Nat} (v : Vector (Vector α n) n) :
    square? n (v.toList.map (·.toList)) = some v := by
  have hrow {β : Type} (w : Vector β n) : square?.vector? n w.toList = some w := by
    unfold square?.vector?
    rw [dif_pos w.length_toList]
    rfl
  unfold square?
  rw [mapM_map_eq_pure fun row _ => hrow row]
  exact hrow v

end Grid

namespace Board

theorem readGrid_eq_ok {n : Nat} {rows : List Data} {items : List (List Data)}
    {raw : Vector (Vector Data n) n} {cells : Vector (Vector Cell n) n} (hn : rows.length = n)
    (hitems : rows? rows = some items) (hraw : Grid.square? n items = some raw)
    (hcells : (raw.mapM fun row => row.mapM Cell.ofData) = .ok cells) :
    readGrid n rows = .ok ⟨n, cells⟩ := by
  subst hn
  unfold readGrid
  simp only [if_true, hitems, Option.bind_eq_bind, Option.bind_some, hraw]
  rw [hcells]
  rfl

theorem rows?_lists (items : List (List Data)) : rows? (items.map .list) = some items :=
  mapM_map_eq_pure fun _ _ => rfl

/-- The rows of a grid are read as the grid they are of. -/
theorem readGrid_toRows {g : Grid} (h : ∀ x y, (g.cell x y).WellFormed) :
    readGrid g.size (g.toRows.map fun row => .list (row.map Cell.toData)) = .ok g := by
  obtain ⟨n, rows⟩ := g
  let raw := rows.map (·.map Cell.toData)
  have hrows : (Grid.toRows ⟨n, rows⟩).map (fun row => Data.list (row.map Cell.toData)) =
      (raw.toList.map (·.toList)).map .list := by
    simp [raw, Grid.toRows, Vector.toList_map, Function.comp_def]
  have hcells : (raw.mapM fun row => row.mapM Cell.ofData) = .ok rows := by
    rw [vector_mapM_eq_ok, Vector.toList_map]
    refine mapM_map_eq_pure fun row hrow => ?_
    refine vector_mapM_eq_ok.mpr ?_
    rw [Vector.toList_map]
    refine mapM_map_eq_pure fun c hc => ?_
    have hrow' : row ∈ (⟨n, rows⟩ : Grid).rows := Vector.mem_toList_iff.mp hrow
    have hc' : c ∈ row := Vector.mem_toList_iff.mp hc
    obtain ⟨x, y, hcell⟩ := Grid.exists_cell_of_mem hrow' hc'
    exact Cell.ofData_toData (hcell ▸ h x y)
  rw [hrows]
  exact readGrid_eq_ok (by simp [raw]) (rows?_lists _) (Grid.square?_toList raw) hcells

/-- What a board is read as once it is written: a block limit of zero reads as one that is not
given. -/
def reread (b : Board) : Board :=
  { b with blockLimit := if b.blockLimit = 0 then defaultBlockLimit else b.blockLimit }

theorem reread_eq_iff {b : Board} : b.reread = b ↔ b.blockLimit ≠ 0 := by
  constructor
  · intro h hzero
    have hlimit : defaultBlockLimit = 0 := by simpa [reread, hzero] using congrArg blockLimit h
    exact absurd hlimit (by decide)
  · intro h
    unfold reread
    rw [if_neg h]

theorem readRows_written {fields : List (String × Data)} {rows : List Data}
    (h : Data.field "mapData" fields = .list rows) (hpos : 1 ≤ rows.length) :
    readRows fields = .ok rows := by
  unfold readRows
  rw [h]
  cases rows with
  | nil => cases hpos
  | cons row rest => rfl

theorem readLimit_written {fields : List (String × Data)} {limit : Int}
    (h : Data.field "blockLimit" fields = .int limit) :
    readLimit fields = .ok (if limit = 0 then defaultBlockLimit else limit) := by
  have hpresent : (Data.int limit).isPresent = !decide (limit = 0) := rfl
  unfold readLimit
  dsimp only
  rw [h, hpresent]
  by_cases hzero : limit = 0
  · simp [hzero]
  · simp only [hzero]
    rfl

theorem readSecond_written {fields : List (String × Data)} {size : Nat} {second : Option Start}
    (h : Data.field "bunnyPosition2" fields = (second.map Start.toData).getD .null)
    (hinside : ∀ s ∈ second.toList, 0 ≤ s.x ∧ s.x < size ∧ 0 ≤ s.y ∧ s.y < size) :
    readSecond fields size = .ok second := by
  unfold readSecond
  dsimp only
  rw [h]
  cases second with
  | none => rfl
  | some s =>
    have hs := Start.ofData_toData (hinside s (by simp))
    have hpresent : s.toData.isPresent = true := rfl
    simp only [Option.map_some, Option.getD_some, hpresent, if_true, hs]
    rfl

/-- A board that a game can be played on is read back from what is written of it. -/
theorem ofData_toData_of_wellFormed {b : Board} (h : b.WellFormed) :
    ofData b.toData = .ok b.reread := by
  have hinside {s : Start} (hs : s ∈ b.starts) :
      0 ≤ s.x ∧ s.x < b.grid.size ∧ 0 ≤ s.y ∧ s.y < b.grid.size :=
    Grid.contains_iff.mp (h.placed s hs)
  have hfirst := Start.ofData_toData (hinside (.head _))
  obtain ⟨fields, hfields⟩ : ∃ fields, b.toData = .record fields := ⟨_, rfl⟩
  let rows := b.grid.toRows.map fun row => Data.list (row.map Cell.toData)
  have hrows : readRows fields = .ok rows := by
    refine readRows_written ?_ ?_
    · cases hfields
      rfl
    · have hpos := h.size_pos
      simp only [rows, List.length_map, Grid.length_toRows]
      exact hpos
  have hstart : readStart fields = .ok b.first.toData := by
    cases hfields
    rfl
  have hsize : readSize fields rows = .ok b.grid.size := by
    cases hfields
    rfl
  have hgrid : readGrid b.grid.size rows = .ok b.grid := readGrid_toRows h.cells
  have hsecond : readSecond fields b.grid.size = .ok b.second := by
    refine readSecond_written ?_ fun s hs => hinside (.tail _ hs)
    cases hfields
    cases b.second <;> rfl
  have hlimit : readLimit fields = .ok b.reread.blockLimit := by
    refine readLimit_written ?_
    cases hfields
    rfl
  have hname : Data.field? "name" fields = some (.text b.name) := by
    cases hfields
    rfl
  rw [hfields]
  show ofFields fields = _
  unfold ofFields
  rw [hrows, hname]
  simp only [bind_eq_ok]
  exact ⟨_, rfl, _, hstart, _, hsize, _, hgrid, _, hfirst, _, hsecond, _, hlimit, rfl⟩

/-- Whatever data a board is read from, it is read again from what is written of it: with the same
grid, starts and name, and as the same board exactly if its block limit is not zero. -/
theorem written_reads_back {d : Data} {b : Board} (h : ofData d = .ok b) :
    ∃ b', ofData b.toData = .ok b' ∧ b'.grid = b.grid ∧ b'.starts = b.starts ∧ b'.name = b.name ∧
      (b' = b ↔ b.blockLimit ≠ 0) :=
  ⟨b.reread, ofData_toData_of_wellFormed (ofData_wellFormed h), rfl, rfl, rfl, reread_eq_iff⟩

def looseBerry : Data :=
  .record [("type", .text "STRAWBERRY"), ("value", .scalar (.number (.double (.ofInt 2))))]

/-- A map that gives numerals for numbers, a whole double as a worth, keywords in capitals and a
number as its name. -/
def looseData : Data :=
  .record
    [ ("gridSize", .text " 1 "), ("mapData", .list [.list [looseBerry]]),
      ("bunnyPosition", .record
        [("x", .text "0"), ("y", .bool false), ("direction", .text "Down")]),
      ("blockLimit", .text "0"), ("name", .int 7) ]

def loose : Board where
  grid := ⟨1, #v[#v[⟨.strawberry, 2⟩]]⟩
  first := ⟨0, 0, .down⟩
  blockLimit := 0
  name := "7"

theorem ofData_looseBerry : Cell.ofData looseBerry = .ok ⟨.strawberry, 2⟩ := by
  have hkind : CellKind.ofName? (Text.smalls "STRAWBERRY") = some .strawberry := by decide +kernel
  have hwhole : (Double.ofInt 2).toInt? = some 2 := by decide +kernel
  have hworth : Cell.wholeValue (.scalar (.number (.double (.ofInt 2)))) = .int 2 := by
    unfold Cell.wholeValue
    dsimp only
    rw [hwhole]
    rfl
  unfold Cell.ofData looseBerry
  simp only [Data.field?, Data.text, List.lookup_cons, Data.asText]
  simp [hkind, hworth, Data.int, Scalar.int]

theorem ofData_loose : ofData looseData = .ok loose := by
  have hrow : Vector.mapM Cell.ofData #v[looseBerry] = .ok #v[⟨.strawberry, 2⟩] := by
    rw [vector_mapM_eq_ok]
    simp [ofData_looseBerry, bind, pure, Except.bind, Except.pure]
  have hcells : Vector.mapM (Vector.mapM Cell.ofData) #v[#v[looseBerry]] =
      .ok #v[#v[⟨.strawberry, 2⟩]] := by
    rw [vector_mapM_eq_ok]
    simp [hrow, bind, pure, Except.bind, Except.pure]
  have hgrid : readGrid 1 [.list [looseBerry]] = .ok loose.grid := readGrid_eq_ok rfl rfl rfl hcells
  have hsize : wholeOr (.badSize (.text " 1 ")) (.text " 1 ") = .ok 1 := by cbv
  have hstart : Start.ofData 1 (.record
      [("x", .text "0"), ("y", .bool false), ("direction", .text "Down")]) = .ok ⟨0, 0, .down⟩ := by
    cbv
  have hlimit : wholeOr (.badBlockLimit (.text "0")) (.text "0") = .ok 0 := by cbv
  show ofFields _ = _
  unfold ofFields
  simp only [bind_eq_ok]
  exact ⟨_, rfl, _, rfl, _, hsize, _, hgrid, _, hstart, _, rfl, _, hlimit, rfl⟩

/-- The block limit that a map gives as the numeral of zero does not survive. -/
theorem written_reads_back_loose : ofData looseData = .ok loose ∧
    ∃ b', ofData loose.toData = .ok b' ∧ b'.name = "7" ∧ b' ≠ loose := by
  obtain ⟨b', hb', -, -, hname, hsame⟩ := written_reads_back ofData_loose
  exact ⟨ofData_loose, b', hb', hname, fun h => hsame.mp h rfl⟩

end Board
end BunnyGrid
