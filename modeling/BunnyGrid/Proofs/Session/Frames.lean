import BunnyGrid.Proofs.Session.Harvest
import BunnyGrid.Proofs.Session.Refusal
import BunnyGrid.Proofs.View.Replay

/-! The pictures of a run, which are drawn from its events alone, are those of the world as it was
when each event was logged. -/
namespace BunnyGrid

namespace Play

theorem schedule_isDirect (p : Play) (first second : Program) :
    ∀ job ∈ turnsCode (p.schedule first second), job.1.isDirect = true := by
  intro job hmem
  obtain ⟨turn, hturn, rfl⟩ := List.mem_map.mp hmem
  dsimp only
  rcases mem_schedule hturn with ⟨h, -⟩ | ⟨h, -⟩
  · rw [h, Actor.isDirect_ofSlot]
  · rw [h, Actor.isDirect_ofSlot]

theorem finish_picture (p : Play) : p.finish.world.picture = p.world.picture := by
  unfold finish
  split <;> rfl

end Play

namespace Session
open Play

variable {s : Session} {stage : Stage}

/-- The pictures of a run are drawn from the board and the events. -/
theorem frames_eq_replayAll {stage' : Stage} {first second : Program}
    (h : (s.run first second).session.stage = some stage') :
    (s.frames first second).value.1 =
      ((World.ofBoard stage'.board).replayAll (s.run first second).value.events).map
        World.picture := by
  unfold Session.frames
  dsimp only
  rw [h]
  rfl

/-- A run that is not refused walks, from the map as it starts, through some plays to its end. It
has one picture more than events: the first is of the map, the one for an event is of the play in
which this event was just logged, and the last is of the world that is left. -/
theorem frames_follow_run (hs : s.stage = some stage) (first second : Program)
    (h : (s.run first second).value.status.isRefusal = false) :
    let events := (s.run first second).value.events
    let frames := (s.frames first second).value.1
    ∃ (p : Play) (ps : List Play) (q : Play) (stage' : Stage),
      p.world = { World.ofBoard stage.board with status := .running, message := "Running..." } ∧
      p.events = #[] ∧
      Walk s.rules (turnsCode (p.schedule first second)) p ps q ∧
      (s.run first second).session.stage = some stage' ∧
      stage'.world = q.finish.world ∧ stage'.events = q.events ∧
      frames.length = events.length + 1 ∧
      frames[0]? = some (World.ofBoard stage.board).picture ∧
      (∀ k < events.length, ∃ moment, (p.logged ps)[k]? = some moment ∧
        moment.events.toList = events.take (k + 1) ∧
        frames[k + 1]? = some moment.world.picture) ∧
      frames.getLast? = some stage'.world.picture := by
  intro events frames
  obtain ⟨told, q, hends, hstage, hvalue⟩ := ends_of_run hs h
  let p : Play := start { stage.reset.toPlay with notices := told }
  let turns := p.schedule first second
  have hq : q = (p.takeTurns s.rules turns).finish := hends.eq_takeTurns rfl
  obtain ⟨ps, hwalk⟩ := takeTurns_walk s.rules turns p
  have hstart : p.world.Resembles (.ofBoard stage.board) := ⟨rfl, rfl⟩
  obtain ⟨new, hnew⟩ := hwalk.retold (schedule_isDirect p first second) hstart
  have hevents : events = new := by
    show (s.run first second).value.events = new
    rw [hvalue, hq]
    show (p.takeTurns s.rules turns).finish.events.toList = new
    rw [finish_events, hnew.log]
    rfl
  have hframes : frames = ((World.ofBoard stage.board).replayAll new).map World.picture := by
    have hdrawn := frames_eq_replayAll hstage
    rw [← hevents]
    exact hdrawn
  have hpictures : frames = p.world.picture :: (p.logged ps).map (·.world.picture) :=
    hframes.trans hnew.pictures
  refine ⟨p, ps, _, stage.reset.after q, rfl, rfl, hwalk, hstage, ?_, ?_, ?_, ?_, ?_, ?_⟩
  · rw [hq]
    rfl
  · rw [hq]
    exact finish_events _
  · rw [hpictures, hevents, List.length_cons, List.length_map, hnew.length]
  · rw [hpictures]
    exact congrArg some hstart.picture.symm
  · intro k hk
    rw [hevents] at hk ⊢
    rw [hframes]
    exact hnew.frame hk
  · have hlast : q.world.picture = (p.takeTurns s.rules turns).world.picture := by
      rw [hq, finish_picture]
    rw [hframes, hnew.final, ← hlast]
    rfl

/-- A bunny picks a strawberry and leaves the map. -/
theorem frames_follow_run_patch :
    let hop : Block := .act (.jump .ahead (.plain 1))
    let s := after {} [.install .patch]
    (s.run [hop, hop] []).value.status.isRefusal = false ∧
      (s.frames [hop, hop] []).value.1.length = 3 ∧
      (s.frames [hop, hop] []).value.1[0]? = some "> S\n. #" ∧
      (s.frames [hop, hop] []).value.1.getLast? = some ". .\n. #" := by
  intro hop s
  have hrun : (s.run [hop, hop] []).value.status.isRefusal = false := by decide
  obtain ⟨p, ps, q, stage', -, -, -, hstage, -, -, hlength, hzero, -, hlast⟩ :=
    frames_follow_run (s := s) rfl [hop, hop] [] hrun
  have hevents : (s.run [hop, hop] []).value.events.length = 2 := by decide
  have hfirst : (World.ofBoard .patch).picture = "> S\n. #" := by decide +kernel
  refine ⟨hrun, by rw [hlength, hevents], by rw [hzero, ← hfirst]; rfl, ?_⟩
  rw [hlast]
  cases hstage
  decide +kernel

end Session
end BunnyGrid
