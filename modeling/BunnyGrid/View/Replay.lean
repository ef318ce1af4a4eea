import BunnyGrid.Session.Basic
import BunnyGrid.View.Picture

/-! A run told again from its events alone. -/
namespace BunnyGrid

/-- The world after an event, as far as a picture shows it. -/
def World.replay (w : World) (e : Event) : World :=
  match e.kind with
  | .exit => w.mapBunny e.agent.toNat fun b => { b with active := false }
  | kind =>
    let w := w.mapBunny e.agent.toNat fun b => { b with x := e.x, y := e.y, facing := e.facing }
    if kind = .strawberry then { w with grid := w.grid.put e.x e.y {} } else w

/-- The worlds that events lead through, the first one included. -/
def World.replayAll (w : World) : List Event → List World
  | [] => [w]
  | e :: rest => w :: (w.replay e).replayAll rest

/-- The pictures of a run on a board: the start, and one for each event. -/
def Board.frames (b : Board) (events : List Event) : List String :=
  ((World.ofBoard b).replayAll events).map World.picture

/-- Run one or two programs from the start and give the pictures of the run; none without a
map. -/
def Session.frames (s : Session) (first second : Program) : Reply (List String × RunResult) :=
  let reply := s.run first second
  let frames := reply.session.stage.elim [] (·.board.frames reply.value.events)
  { reply with value := (frames, reply.value) }

end BunnyGrid
