import BunnyGrid.Proofs.Play.Alike
import BunnyGrid.Proofs.Play.Bisimulation

/-! Plays on maps that differ in what lies on their cells. No block reads a cell, a score or the
counted moves, so such plays go in step: each move leaves the same code to run. -/
namespace BunnyGrid

/-- A bunny but for its score and its moves, which are all that a cell changes. -/
def Bunny.bare (b : Bunny) : Bunny := { b with score := 0, moves := 0 }

/-- Whom an event tells of, and where that bunny stands and faces. -/
def Event.course (e : Event) : Int × Int × Int × Direction := (e.agent, e.x, e.y, e.facing)

theorem Bunny.bare_landed (rules : Rules) (cell : Cell) (x y : Int) (b : Bunny) :
    (b.landed rules cell x y).bare = { b.bare with x, y } := by
  unfold landed bare
  cases cell.kind <;> rfl

/-- Two results that differ only in what cells are the cause of: in scores, moves, the message, and
the kinds and messages of events. -/
structure RunResult.InStep (r r' : RunResult) : Prop where
  status : r'.status = r.status
  steps : r'.steps = r.steps
  active : r'.active = r.active
  log : r'.events.map Event.course = r.events.map Event.course

theorem any_active_of_bare {bs bs' : List Bunny} (h : bs'.map Bunny.bare = bs.map Bunny.bare) :
    bs'.any (·.active) = bs.any (·.active) := by
  have hbare (bs : List Bunny) : bs.any (·.active) = (bs.map Bunny.bare).any (·.active) := by
    rw [List.any_map]
    rfl
  rw [hbare bs', h, ← hbare]

namespace Play

/-- Two plays are in step if they differ only in what cells are the cause of: in the cells, in
scores and moves, and in the kinds and messages of events. -/
structure InStep (p p' : Play) : Prop where
  size : p'.world.grid.size = p.world.grid.size
  bunnies : p'.world.bunnies.map Bunny.bare = p.world.bunnies.map Bunny.bare
  steps : p'.world.steps = p.world.steps
  ended : p'.world.ended = p.world.ended
  status : p'.world.status = p.world.status
  log : p'.events.toList.map Event.course = p.events.toList.map Event.course

namespace InStep

variable {rules : Rules} {who : Actor} {p p' : Play}

section Parts

theorem length (h : InStep p p') : p'.world.bunnies.length = p.world.bunnies.length := by
  have hlength := congrArg List.length h.bunnies
  rwa [List.length_map, List.length_map] at hlength

theorem bunny? (h : InStep p p') (who : Actor) :
    (p'.bunny? who).map Bunny.bare = (p.bunny? who).map Bunny.bare := by
  unfold Play.bunny?
  rw [← List.getElem?_map, h.bunnies, List.getElem?_map]

theorem exists_bunny (h : InStep p p') {b : Bunny} (hb : p.bunny? who = some b) :
    ∃ b', p'.bunny? who = some b' ∧ b'.bare = b.bare := by
  have hbunny := h.bunny? who
  rw [hb, Option.map_some] at hbunny
  exact Option.map_eq_some_iff.mp hbunny

theorem self? (h : InStep p p') (who : Actor) :
    (p'.self? who).map Bunny.bare = (p.self? who).map Bunny.bare := by
  unfold Play.self?
  split
  · exact h.bunny? who
  · rfl

theorem eval (h : InStep p p') (who : Actor) (e : Expr) :
    e.eval (p'.self? who) = e.eval (p.self? who) :=
  Expr.eval_eq_of_map_eq (f := Bunny.bare) (fun _ => ⟨rfl, rfl, rfl⟩) (h.self? who) e

theorem halted (h : InStep p p') (who : Actor) : p'.halted who = p.halted who := by
  have hactive (o : Option Bunny) : o.any (·.active) = (o.map Bunny.bare).any (·.active) := by
    cases o <;> rfl
  unfold Play.halted
  rw [h.ended, hactive (p'.bunny? who), h.bunny? who, ← hactive]

theorem log_event (h : InStep p p') {b b' : Bunny} (hb : b'.bare = b.bare) (label : Int)
    (kind kind' : EventKind) (message message' : String) :
    (p'.events.toList ++ [b'.event label kind' message']).map Event.course =
      (p.events.toList ++ [b.event label kind message]).map Event.course := by
  have hx : b'.bare.x = b.bare.x := by rw [hb]
  have hy : b'.bare.y = b.bare.y := by rw [hb]
  have hfacing : b'.bare.facing = b.bare.facing := by rw [hb]
  have hevent : (b'.event label kind' message').course = (b.event label kind message).course :=
    Prod.ext rfl (Prod.ext hx (Prod.ext hy hfacing))
  rw [List.map_append, List.map_append, h.log, List.map_singleton, List.map_singleton, hevent]

theorem tell (h : InStep p p') (ns ns' : Array Notice) :
    InStep { p with notices := ns } { p' with notices := ns' } :=
  ⟨h.size, h.bunnies, h.steps, h.ended, h.status, h.log⟩

theorem record (h : InStep p p') (who : Actor) (kind : EventKind) (message : String) :
    InStep (p.record who kind message) (p'.record who kind message) := by
  cases hb : p.bunny? who with
  | none =>
    have hb' := h.bunny? who
    rw [hb, Option.map_none, Option.map_eq_none_iff] at hb'
    rw [record_of_none p who kind message hb, record_of_none p' who kind message hb']
    exact h
  | some b =>
    obtain ⟨b', hb', hbare⟩ := h.exists_bunny hb
    refine ⟨by simp [h.size], by simp [h.bunnies], by simp [h.steps], by simp [h.ended],
      by simp [h.status], ?_⟩
    rw [record_log p who kind message hb, record_log p' who kind message hb']
    exact h.log_event hbare ..

/-- A change of one bunny that does not depend on score or moves. -/
theorem mapBunny (h : InStep p p') (who : Actor) {f : Bunny → Bunny}
    (hf : ∀ b, (f b.bare).bare = (f b).bare) :
    InStep (p.mapBunny who f) (p'.mapBunny who f) := by
  have hmodify (q : Play) : (q.mapBunny who f).world.bunnies.map Bunny.bare =
      (q.world.bunnies.map Bunny.bare).modify who.slot fun b => (f b).bare :=
    (modify_map hf q.world.bunnies who.slot).symm
  exact ⟨h.size, by rw [hmodify, hmodify, h.bunnies], h.steps, h.ended, h.status, h.log⟩

theorem land (h : InStep p p') {b : Bunny} (hb : p.bunny? who = some b) (x y : Int) :
    InStep (p.land rules who x y) (p'.land rules who x y) := by
  obtain ⟨b', hb', hbare⟩ := h.exists_bunny hb
  obtain ⟨message, hlog⟩ := land_log rules p who hb x y
  obtain ⟨message', hlog'⟩ := land_log rules p' who hb' x y
  have hlanded (cell cell' : Cell) :
      (b'.landed rules cell' x y).bare = (b.landed rules cell x y).bare := by
    rw [Bunny.bare_landed, Bunny.bare_landed, hbare]
  have hmodify (q : Play) : (q.land rules who x y).world.bunnies.map Bunny.bare =
      (q.world.bunnies.map Bunny.bare).modify who.slot fun b => { b with x, y } := by
    rw [land_bunnies]
    exact (modify_map (fun b => (b.bare_landed rules _ x y).symm) q.world.bunnies who.slot).symm
  refine ⟨?_, by rw [hmodify, hmodify, h.bunnies], by simp [h.steps], by simp [h.ended],
    by simp [h.status], ?_⟩
  · rw [land_grid, land_grid, Grid.landed_size, Grid.landed_size, h.size]
  · rw [hlog, hlog']
    exact h.log_event (hlanded _ _) ..

theorem leave (h : InStep p p') (who : Actor) : InStep (p.leave who) (p'.leave who) := by
  have hgone : InStep (p.mapBunny who fun b => { b with active := false })
      (p'.mapBunny who fun b => { b with active := false }) := h.mapBunny who fun _ => rfl
  have hleft := hgone.record who .exit s!"Bunny {who.label + 1} jumped off the map!"
  have hany := any_active_of_bare hleft.bunnies
  unfold Play.leave
  dsimp only
  unfold World.anyActive
  rw [hany]
  split
  · exact hleft
  · exact ⟨hleft.size, hleft.bunnies, hleft.steps, rfl, rfl, hleft.log⟩

theorem target (h : InStep p p') {b b' : Bunny} (hb : p.bunny? who = some b)
    (hb' : p'.bunny? who = some b') (kind : Jump) (amount : Int) :
    b'.target kind amount = b.target kind amount := by
  have hbare := h.bunny? who
  rw [hb, hb', Option.map_some, Option.map_some, Option.some_inj] at hbare
  have htarget (b : Bunny) : b.target kind amount = b.bare.target kind amount := rfl
  rw [htarget b', hbare, ← htarget b]

/-- An action keeps plays in step. -/
theorem isCongruence (rules : Rules) (who : Actor) : IsCongruence rules who InStep where
  eval := fun h => h.eval who
  target := fun h hb hb' => h.target hb hb'
  contains := fun h => Grid.contains_congr h.size
  tell := tell
  record := fun h => h.record who
  face := fun h _ => h.mapBunny who fun _ => rfl
  store := fun h _ => h.mapBunny who fun _ => rfl
  land := fun h hb => h.land hb
  leave := fun h _ => h.leave who

end Parts

section Moves

theorem tick (h : InStep p p') (rules : Rules) :
    (p'.tick rules).2 = (p.tick rules).2 ∧ InStep (p.tick rules).1 (p'.tick rules).1 := by
  by_cases hl : (p.world.steps : Int) + 1 ≤ rules.stepLimit
  · have hl' : (p'.world.steps : Int) + 1 ≤ rules.stepLimit := by rwa [h.steps]
    rw [tick_of_le rules p hl, tick_of_le rules p' hl']
    exact ⟨rfl, h.size, h.bunnies, congrArg (· + 1) h.steps, h.ended, h.status, h.log⟩
  · have hl := Int.not_le.mp hl
    have hl' : rules.stepLimit < (p'.world.steps : Int) + 1 := by rwa [h.steps]
    obtain ⟨hflag, hlog, told, hw⟩ := tick_of_lt rules p hl
    obtain ⟨hflag', hlog', told', hw'⟩ := tick_of_lt rules p' hl'
    refine ⟨hflag'.trans hflag.symm, ?_, ?_, ?_, ?_, ?_, ?_⟩
    · rw [tick_grid, tick_grid, h.size]
    · rw [tick_bunnies, tick_bunnies, h.bunnies]
    · rw [tick_steps, tick_steps, h.steps]
    · rw [hw, hw']
    · rw [hw, hw']
    · rw [hlog, hlog', h.log]

/-- Blocks keep plays in step. -/
theorem isBisimulation (rules : Rules) (who : Actor) : IsBisimulation rules who InStep where
  toIsCongruence := isCongruence rules who
  halted := fun h => h.halted who
  tick := fun h => h.tick rules

end Moves

end InStep

section Run

variable {rules : Rules} {first second : Program} {p p' q q' : Play}

theorem InStep.finish (h : InStep p p') : InStep p.finish p'.finish := by
  unfold Play.finish
  rw [h.status]
  split
  · exact ⟨h.size, h.bunnies, h.steps, h.ended, rfl, h.log⟩
  · exact h

theorem InStep.runToEnd (h : InStep p p') (rules : Rules) (first second : Program) :
    InStep (p.runToEnd rules first second) (p'.runToEnd rules first second) := by
  have hstart : InStep p.start p'.start := ⟨h.size, h.bunnies, h.steps, h.ended, rfl, h.log⟩
  have hturns : p'.schedule first second = p.schedule first second := by
    unfold schedule
    rw [h.length]
  rw [runToEnd_eq_takeTurns, runToEnd_eq_takeTurns, hturns]
  exact (takeTurns_related (isBisimulation rules) hstart _).finish

theorem Ends.inStep (h : Ends rules first second p q) (h' : Ends rules first second p' q')
    (hp : InStep p p') : InStep q q' := by
  cases he : p.world.ended with
  | true =>
    have hq : q = p := h.det (.ended he)
    have hq' : q' = p' := h'.det (.ended (hp.ended.trans he))
    rw [hq, hq']
    exact hp
  | false =>
    have hq := h.det (runToEnd_ends he)
    have hq' := h'.det (runToEnd_ends (hp.ended.trans he))
    rw [hq, hq']
    exact hp.runToEnd rules first second

theorem InStep.result (h : InStep p p') : RunResult.InStep p.result p'.result where
  status := h.status
  steps := h.steps
  active := by
    have hbare (q : Play) : q.result.active = (q.world.bunnies.map Bunny.bare).map (·.active) := by
      rw [List.map_map]
      rfl
    rw [hbare, hbare, h.bunnies]
  log := h.log

/-- Plays without their notices decide whether they are in step. -/
theorem InStep.congr (h : InStep p p') (hw : q.world = p.world) (he : q.events = p.events)
    (hw' : q'.world = p'.world) (he' : q'.events = p'.events) : InStep q q' := by
  obtain ⟨hsize, hbunnies, hsteps, hended, hstatus, hlog⟩ := h
  rw [← hw, ← hw'] at hsize hbunnies hsteps hended hstatus
  rw [← he, ← he'] at hlog
  exact ⟨hsize, hbunnies, hsteps, hended, hstatus, hlog⟩

/-- Runs of the same programs from plays in step go in step. -/
theorem InStep.run (h : InStep p p') (rules : Rules) (first second : Program) :
    InStep (p.run rules first second).1 (p'.run rules first second).1 ∧
      RunResult.InStep (p.run rules first second).2 (p'.run rules first second).2 := by
  have hnothing : p'.HasNothing first second ↔ p.HasNothing first second := by
    unfold HasNothing
    rw [h.length]
  by_cases hnone : p.HasNothing first second
  · obtain ⟨hw, he, hr⟩ := run_of_hasNothing rules hnone
    obtain ⟨hw', he', hr'⟩ := run_of_hasNothing rules (hnothing.mpr hnone)
    have hresult := h.result
    rw [hr, hr']
    exact ⟨h.congr hw he hw' he', rfl, hresult.steps, hresult.active, hresult.log⟩
  · obtain ⟨p₀, q, hw₀, he₀, hq, hw, he, hr⟩ := run_ends rules hnone
    obtain ⟨p₀', q', hw₀', he₀', hq', hw', he', hr'⟩ := run_ends rules (mt hnothing.mp hnone)
    have hend := hq.inStep hq' (h.congr hw₀ he₀ hw₀' he₀')
    rw [hr, hr']
    exact ⟨hend.congr hw he hw' he', hend.result⟩

end Run

end Play

theorem Play.ofBoard_inStep {board board' : Board} (hsize : board'.grid.size = board.grid.size)
    (hstarts : board'.starts = board.starts) :
    Play.InStep { world := .ofBoard board } { world := .ofBoard board' } := by
  refine ⟨hsize, ?_, rfl, rfl, rfl, rfl⟩
  unfold World.ofBoard
  dsimp only
  rw [hstarts]

end BunnyGrid
