import BunnyGrid.Proofs.Play.Symmetry
import BunnyGrid.Proofs.Session.Harvest
import BunnyGrid.Proofs.Session.Refusal

/-! What a run makes of a map turned by a quarter, or of its mirror image, is the turned or mirrored
outcome. -/
namespace BunnyGrid

namespace Symmetry

variable (σ : Symmetry)

/-- The image of a stage is the image of all that shows places or facings: the board, the world and
the log. -/
def stage (s : Stage) : Stage where
  board := σ.board s.board
  world := σ.world s.world
  events := s.events.map (σ.event s.world.grid.size)

theorem stage_ofBoard (board : Board) :
    Stage.ofBoard (σ.board board) = σ.stage (.ofBoard board) := by
  unfold Stage.ofBoard stage
  rw [σ.world_ofBoard, Array.map_empty]

theorem stage_reset (s : Stage) : (σ.stage s).reset = σ.stage s.reset := σ.stage_ofBoard s.board

end Symmetry

namespace Session
open Play

variable {s s' : Session} {stage : Stage} {first second : Program} (σ : Symmetry)

theorem events_of_overLimit? {limit : Int} {n : Nat} {programs : List Program} {r : RunResult}
    (h : overLimit? limit n programs = some r) : r.events = [] := by
  rw [eq_of_overLimit? h]

/-- What is refused at the first check logs nothing. -/
theorem events_of_refusal? {programs : List Program} {r : RunResult}
    (h : s.refusal? programs = some r) : r.events = [] := by
  unfold refusal? at h
  split at h
  · cases h
    rfl
  · split at h
    · cases h
      rfl
    · exact events_of_overLimit? h

theorem overLimit?_image (limit : Int) (n : Nat) (programs : List Program) :
    overLimit? limit n (programs.map σ.blocks) = overLimit? limit n programs := by
  induction programs generalizing n with
  | nil => rfl
  | cons p rest ih =>
    have hcount : Program.count (σ.blocks p) = p.count := σ.count_blocks p
    rw [List.map_cons, overLimit?, overLimit?, hcount, ih]

/-- The first check finds in images what it finds in the programs on the board. -/
theorem refusal?_image (hs : s.stage = some stage) (hs' : s'.stage = some (σ.stage stage))
    (programs : List Program) :
    s'.refusal? (programs.map σ.blocks) = s.refusal? programs := by
  have hempty : (programs.map σ.blocks).all (·.isEmpty) = programs.all (·.isEmpty) := by
    rw [List.all_map]
    exact congrArg programs.all (funext σ.blocks_isEmpty)
  unfold refusal?
  rw [hs, hs']
  dsimp only
  rw [hempty, overLimit?_image]
  rfl

theorem continueWith_image (hr : s'.rules = s.rules) (hs : s.stage = some stage)
    (hs' : s'.stage = some (σ.stage stage)) (hfirst : Block.areCoordFree first = true)
    (hsecond : Block.areCoordFree second = true) :
    let reply := s.continueWith first second
    let image := s'.continueWith (σ.blocks first) (σ.blocks second)
    image.session.stage = reply.session.stage.map σ.stage ∧
      image.value = σ.result stage.world.grid.size reply.value := by
  let q := (stage.toPlay.run s.rules first second).1
  have hsize : q.world.grid.size = stage.world.grid.size :=
    (run_steps s.rules first second stage.toPlay).grid_size
  have hrun : (σ.play stage.toPlay).run s.rules (σ.blocks first) (σ.blocks second) =
      (σ.play q, σ.result q.world.grid.size (stage.toPlay.run s.rules first second).2) :=
    σ.run_play hfirst hsecond
  have hplay : (σ.stage stage).toPlay = σ.play stage.toPlay := by
    unfold Stage.toPlay Symmetry.play
    rw [Array.map_empty]
    rfl
  rw [continueWith_of_stage hs, continueWith_of_stage hs', hr]
  dsimp only
  rw [hplay, hrun, hsize]
  exact ⟨rfl, rfl⟩

/-- On the image of a stage the images of two programs have the image of their outcome. -/
theorem run_image (hr : s'.rules = s.rules) (hs : s.stage = some stage)
    (hs' : s'.stage = some (σ.stage stage)) (hfirst : Block.areCoordFree first = true)
    (hsecond : Block.areCoordFree second = true) :
    let reply := s.run first second
    let image := s'.run (σ.blocks first) (σ.blocks second)
    image.session.stage = reply.session.stage.map σ.stage ∧
      image.value = σ.result stage.board.grid.size reply.value := by
  have hcheck : s'.refusal? [σ.blocks first, σ.blocks second] = s.refusal? [first, second] :=
    refusal?_image σ hs hs' [first, second]
  unfold run
  rw [hcheck]
  cases hpass : s.refusal? [first, second] with
  | some r =>
    have hlog := events_of_refusal? hpass
    constructor
    · rw [hs, hs']
      rfl
    · dsimp only [Symmetry.result]
      rw [hlog, List.map_nil, ← hlog]
  | none =>
    have hback : s'.reset.stage = some (σ.stage stage.reset) := by
      rw [reset_stage hs', σ.stage_reset]
    have hrules : s'.reset.rules = s.reset.rules := hr
    exact continueWith_image σ hrules (reset_stage hs) hback hfirst hsecond

/-- If no expression of two programs reads a coordinate, then on the map turned clockwise by a
quarter they have the turned outcome. On the mirrored map they have the mirrored outcome, with every
turn and jump to a side made to the other side. Between an outcome and its image only places and
facings differ. -/
theorem run_on_turned_and_mirrored_map (rules : Rules) (board : Board) (first second : Program)
    (hfirst : Block.areCoordFree first = true) (hsecond : Block.areCoordFree second = true) :
    let n := board.grid.size
    let reply := (after rules [.install board]).run first second
    let turned := (after rules [.install (Symmetry.quarterTurn.board board)]).run first second
    let mirrored := (after rules [.install (Symmetry.mirror.board board)]).run
      (Symmetry.mirror.blocks first) (Symmetry.mirror.blocks second)
    turned.value = Symmetry.quarterTurn.result n reply.value ∧
      turned.session.stage = reply.session.stage.map Symmetry.quarterTurn.stage ∧
      mirrored.value = Symmetry.mirror.result n reply.value ∧
      mirrored.session.stage = reply.session.stage.map Symmetry.mirror.stage := by
  intro n reply turned mirrored
  have himage (σ : Symmetry) :
      let image := (after rules [.install (σ.board board)]).run (σ.blocks first) (σ.blocks second)
      image.session.stage = reply.session.stage.map σ.stage ∧
        image.value = σ.result n reply.value := by
    have hrules : (after rules [.install (σ.board board)]).rules =
        (after rules [.install board]).rules := rfl
    have hstage : (after rules [.install (σ.board board)]).stage =
        some (σ.stage (.ofBoard board)) := congrArg some (σ.stage_ofBoard board)
    exact run_image σ hrules rfl hstage hfirst hsecond
  have hturned := himage .quarterTurn
  rw [Symmetry.quarterTurn_blocks, Symmetry.quarterTurn_blocks] at hturned
  have hmirrored := himage .mirror
  exact ⟨hturned.2, hturned.1, hmirrored.2, hmirrored.1⟩

/-- A jump to a side ends on the stone, whichever way the map lies. -/
theorem run_on_turned_and_mirrored_map_patch :
    let aside (kind : Jump) : Block := .act (.jump kind (.plain 1))
    let turned := (after {} [.install (Symmetry.quarterTurn.board .patch)]).run [aside .right] []
    let mirrored := (after {} [.install (Symmetry.mirror.board .patch)]).run [aside .left] []
    let ends (r : RunResult) := r.events.map fun e => (e.kind, e.x, e.y, e.facing)
    Block.areCoordFree [aside .right] = true ∧
      ends turned.value = [(.stone, 0, 1, .down)] ∧
      ends mirrored.value = [(.stone, 0, 1, .left)] := by
  intro aside turned mirrored ends
  obtain ⟨hturned, -, hmirrored, -⟩ :=
    run_on_turned_and_mirrored_map {} .patch [aside .right] [] rfl rfl
  refine ⟨rfl, (congrArg ends hturned).trans ?_, (congrArg ends hmirrored).trans ?_⟩
  · decide
  · decide

end Session
end BunnyGrid
