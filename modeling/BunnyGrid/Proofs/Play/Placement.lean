import BunnyGrid.Proofs.World.Board
import BunnyGrid.Proofs.Play.Step

/-! Whatever is played, the bunnies stay on the grid and the grid loses nothing but strawberries. -/
namespace BunnyGrid

theorem forall_mem_modify {α : Type} {P : α → Prop} {f : α → α} (hf : ∀ a, P a → P (f a))
    {as : List α} (h : ∀ a ∈ as, P a) (i : Nat) : ∀ a ∈ as.modify i f, P a := by
  intro a ha
  obtain ⟨j, hj, rfl⟩ := List.getElem_of_mem ha
  rw [List.getElem_modify]
  split
  · exact hf _ (h _ (List.getElem_mem _))
  · exact h _ (List.getElem_mem _)

namespace World

/-- What a world has in common with the board that it was started from. -/
structure WellFormed (board : Board) (w : World) : Prop where
  size : w.grid.size = board.grid.size
  count : w.bunnies.length = board.bunnyCount
  placed : ∀ b ∈ w.bunnies, board.grid.contains b.x b.y = true
  scores : ∀ b ∈ w.bunnies, 0 ≤ b.score
  /-- A strawberry may be gone; all other cells are as the board has them. -/
  cells : ∀ x y, w.grid.cell x y = board.grid.cell x y ∨
    w.grid.cell x y = {} ∧ (board.grid.cell x y).kind = .strawberry

variable {board : Board} {w w' : World}

theorem WellFormed.congr (h : w.WellFormed board) (hg : w'.grid = w.grid)
    (hb : w'.bunnies = w.bunnies) : w'.WellFormed board := by
  obtain ⟨h1, h2, h3, h4, h5⟩ := h
  rw [← hg] at h1 h5
  rw [← hb] at h2 h3 h4
  exact ⟨h1, h2, h3, h4, h5⟩

theorem WellFormed.mapBunny (h : w.WellFormed board) {f : Bunny → Bunny}
    (hplace : ∀ b, board.grid.contains b.x b.y = true → board.grid.contains (f b).x (f b).y = true)
    (hscore : ∀ b, 0 ≤ b.score → 0 ≤ (f b).score) (slot : Nat) :
    (w.mapBunny slot f).WellFormed board where
  size := h.size
  count := by simp [h.count]
  placed := forall_mem_modify hplace h.placed slot
  scores := forall_mem_modify hscore h.scores slot
  cells := h.cells

/-- Landing at a place takes a strawberry from there and changes no other cell. -/
theorem WellFormed.landed (h : w.WellFormed board) {x y : Int} (hxy : w.grid.contains x y = true) :
    World.WellFormed board { w with grid := w.grid.landed x y } where
  size := by
    unfold Grid.landed
    split
    · exact (Grid.put_size ..).trans h.size
    · exact h.size
  count := h.count
  placed := h.placed
  scores := h.scores
  cells := by
    intro x' y'
    dsimp only
    unfold Grid.landed
    split
    case isFalse => exact h.cells x' y'
    case isTrue hk =>
      rw [Grid.cell_put hxy]
      split
      case isFalse => exact h.cells x' y'
      case isTrue heq =>
        obtain ⟨rfl, rfl⟩ := heq
        rcases h.cells x' y' with hsame | ⟨-, hstraw⟩
        · exact .inr ⟨rfl, by rw [← hsame, hk]⟩
        · exact .inr ⟨rfl, hstraw⟩

/-- From bunnies that start on the grid a world starts well formed. -/
theorem ofBoard_wellFormed_of_placed
    (hplaced : ∀ s ∈ board.starts, board.grid.contains s.x s.y = true) :
    (World.ofBoard board).WellFormed board where
  size := rfl
  count := by simp [ofBoard, Board.bunnyCount]
  placed := by
    intro b hmem
    obtain ⟨s, hs, rfl⟩ := List.mem_map.mp hmem
    exact hplaced s hs
  scores := by
    intro b hmem
    obtain ⟨s, -, rfl⟩ := List.mem_map.mp hmem
    exact Int.le_refl 0
  cells := fun _ _ => .inl rfl

theorem ofBoard_wellFormed (hb : board.WellFormed) : (World.ofBoard board).WellFormed board :=
  ofBoard_wellFormed_of_placed hb.placed

/-- In a well-formed world too only strawberries are worth something. -/
theorem WellFormed.cell_wellFormed (h : w.WellFormed board) (hb : board.WellFormed) (x y : Int) :
    (w.grid.cell x y).WellFormed := by
  rcases h.cells x y with hsame | ⟨hempty, -⟩
  · rw [hsame]
    exact hb.cells x y
  · rw [hempty]
    exact Cell.wellFormed_empty

end World

namespace Play
open World

variable {rules : Rules} {who : Actor} {p q : Play} {board : Board}

theorem Change.wellFormed (h : Change rules who p q) (hp : p.world.WellFormed board) :
    q.world.WellFormed board := by
  cases h with
  | tell => exact hp
  | turn _ t =>
    have hturn := hp.mapBunny (f := fun b => { b with facing := b.facing.turned t.quarters })
      (fun _ hb => hb) (fun _ hb => hb) who.slot
    exact hturn.congr (by simp) (by simp)
  | store _ f =>
    have hstore := hp.mapBunny (f := fun b => { b with vars := f b.vars })
      (fun _ hb => hb) (fun _ hb => hb) who.slot
    exact hstore.congr (by simp) (by simp)
  | skip => exact hp.congr (by simp) (by simp)
  | land _ x y hxy =>
    have hin : board.grid.contains x y = true := by
      rw [← Grid.contains_congr hp.size]
      exact hxy
    have hland := (hp.landed hxy).mapBunny (f := .landed rules (p.world.grid.cell x y) x y)
      (fun b _ => by simpa using hin)
      (fun b hb => Bunny.landed_score_nonneg rules _ x y hb) who.slot
    exact hland.congr (by simp) (by simp)
  | leave =>
    have hleave := hp.mapBunny (f := fun b => { b with active := false })
      (fun _ hb => hb) (fun _ hb => hb) who.slot
    exact hleave.congr (by simp) (by simp)
  | tick => exact hp.congr (by simp) (by simp)

theorem Step.wellFormed (h : Step rules p q) (hp : p.world.WellFormed board) :
    q.world.WellFormed board := by
  cases h with
  | change h => exact h.wellFormed hp
  | start | finish => exact hp.congr rfl rfl

theorem Steps.wellFormed (h : Steps rules p q) (hp : p.world.WellFormed board) :
    q.world.WellFormed board := by
  induction h with
  | refl => exact hp
  | tail _ h ih => exact h.wellFormed ih

end Play
end BunnyGrid
