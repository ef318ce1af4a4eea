import BunnyGrid.Proofs.Play.Agreement
import BunnyGrid.Proofs.Play.Bisimulation

/-! Plays that agree in their messages too. Blocks read neither messages nor counters, so a message
that differs does so only until the next one is told, and counters that differ go on with the
difference they have. -/
namespace BunnyGrid.Play

section Message

variable {p : Play} {who : Actor} {b : Bunny}

/-- An event with a message makes it the world's. -/
theorem record_message (h : p.bunny? who = some b) (kind : EventKind) (message : String) :
    (p.record who kind message).world.message =
      if message.isEmpty then p.world.message else message := by
  unfold record
  rw [h]
  dsimp only
  split <;> rfl

/-- Whoever leaves, the world tells so. -/
theorem leave_message (h : p.bunny? who = some b) :
    (p.leave who).world.message = s!"Bunny {who.label + 1} jumped off the map!" := by
  have hgone := bunny?_mapBunny_of_some h fun b => { b with active := false }
  have htold := record_message hgone .exit s!"Bunny {who.label + 1} jumped off the map!"
  rw [if_neg (by simp [toString])] at htold
  unfold leave
  dsimp only
  split
  · exact htold
  · exact htold

end Message

/-- Two plays match if they agree, their counters are as `r` has it, and their messages are the
same: at any time if `said`, else in a world that is over. -/
structure Matches (r : Nat → Nat → Prop) (said : Prop) (p p' : Play) : Prop
    extends Agrees p p' where
  steps : r p.world.steps p'.world.steps
  message : said ∨ p.world.ended = true → p'.world.message = p.world.message

namespace Matches

variable {rules : Rules} {who : Actor} {r : Nat → Nat → Prop} {said : Prop} {p p' : Play}

theorem tell (h : Matches r said p p') (ns ns' : Array Notice) :
    Matches r said { p with notices := ns } { p' with notices := ns' } :=
  ⟨h.toAgrees.tell ns ns', h.steps, h.message⟩

theorem record (h : Matches r said p p') (who : Actor) (kind : EventKind) (message : String) :
    Matches r said (p.record who kind message) (p'.record who kind message) where
  toAgrees := h.toAgrees.record who kind message
  steps := by
    rw [record_steps, record_steps]
    exact h.steps
  message := by
    intro hover
    rw [record_ended] at hover
    cases hb : p.bunny? who with
    | none =>
      rw [record_of_none p who kind message hb,
        record_of_none p' who kind message ((h.bunny? who).trans hb)]
      exact h.message hover
    | some b =>
      rw [record_message hb, record_message ((h.bunny? who).trans hb), h.message hover]

theorem mapBunny (h : Matches r said p p') (who : Actor) (f : Bunny → Bunny) :
    Matches r said (p.mapBunny who f) (p'.mapBunny who f) :=
  ⟨h.toAgrees.mapBunny who f, h.steps, h.message⟩

theorem leave (h : Matches r said p p') {b : Bunny} (hb : p.bunny? who = some b) :
    Matches r said (p.leave who) (p'.leave who) where
  toAgrees := h.toAgrees.leave who
  steps := by
    rw [leave_steps, leave_steps]
    exact h.steps
  message := fun _ => by rw [leave_message hb, leave_message ((h.bunny? who).trans hb)]

theorem land (h : Matches r said p p') (who : Actor) (x y : Int) :
    Matches r said (p.land rules who x y) (p'.land rules who x y) := by
  have hmoved := h.mapBunny who fun b => { b with x, y, moves := b.moves + 1 }
  unfold Play.land
  dsimp only [mapBunny_world, World.mapBunny_grid]
  rw [h.grid]
  cases (p.world.grid.cell x y).kind with
  | empty => exact hmoved.record ..
  | stone | puddle => exact (hmoved.mapBunny who _).record ..
  | strawberry =>
    have hfed := hmoved.mapBunny who fun b =>
      { b with score := max 0 (b.score + (p.world.grid.cell x y).value) }
    refine Matches.record ?_ who .strawberry _
    exact ⟨⟨rfl, hfed.bunnies, hfed.ended, hfed.status, hfed.events⟩, hfed.steps, hfed.message⟩

/-- An action keeps plays matching. -/
theorem isCongruence (rules : Rules) (who : Actor) (r : Nat → Nat → Prop) (said : Prop) :
    IsCongruence rules who (Matches r said) where
  eval := fun h => (agrees_isCongruence rules who).eval h.toAgrees
  target := fun h => (agrees_isCongruence rules who).target h.toAgrees
  contains := fun h => (agrees_isCongruence rules who).contains h.toAgrees
  tell := tell
  record := fun h => h.record who
  face := fun h _ => h.mapBunny who _
  store := fun h _ => h.mapBunny who _
  land := fun h _ => h.land who
  leave := fun h hb => h.leave hb

/-- A count within the limit changes counters only. -/
theorem count (h : Matches r said p p') {n n' : Nat} (hn : r n n') :
    Matches r said { p with world := { p.world with steps := n } }
      { p' with world := { p'.world with steps := n' } } :=
  ⟨⟨h.grid, h.bunnies, h.ended, h.status, h.events⟩, hn, h.message⟩

/-- Plays with the same counter pass the limit together. -/
theorem tick (h : Matches Eq said p p') (rules : Rules) :
    (p'.tick rules).2 = (p.tick rules).2 ∧
      Matches Eq said (p.tick rules).1 (p'.tick rules).1 := by
  unfold Play.tick
  dsimp only
  rw [← h.steps]
  split
  · exact ⟨rfl, h.count rfl⟩
  · exact ⟨rfl, ⟨h.grid, h.bunnies, rfl, rfl, h.events⟩, rfl, fun _ => rfl⟩

theorem isBisimulation (rules : Rules) (who : Actor) (said : Prop) :
    IsBisimulation rules who (Matches Eq said) where
  toIsCongruence := isCongruence rules who Eq said
  halted := fun h => h.toAgrees.halted who
  tick := fun h => h.tick rules

/-- Where their messages are the same, plays that match differ in their counters at most. -/
theorem world_eq (h : Matches r said p p') (hover : said ∨ p.world.ended = true) :
    p'.world = { p.world with steps := p'.world.steps } := by
  have heta (w : World) : w = ⟨w.grid, w.bunnies, w.steps, w.ended, w.status, w.message⟩ := rfl
  rw [heta p'.world, h.grid, h.bunnies, h.ended, h.status, h.message hover]

end Matches

section Same

variable {rules : Rules} {first second : Program} {p p' q q' : Play}

/-- Plays with the same world and log match in all there is. -/
theorem Same.matches (h : Same p p') : Matches Eq True p p' where
  grid := by rw [h.world]
  bunnies := by rw [h.world]
  ended := by rw [h.world]
  status := by rw [h.world]
  events := h.events
  steps := by rw [h.world]
  message := fun _ => by rw [h.world]

theorem Matches.same (h : Matches Eq True p p') : Same p p' where
  world := by rw [h.world_eq (.inl trivial), ← h.steps]
  events := h.events

/-- Plays with the same world and log go in step. -/
theorem same_isBisimulation (rules : Rules) (who : Actor) : IsBisimulation rules who Same := by
  have hmatches : Same = Matches Eq True := by
    funext p p'
    exact propext ⟨Same.matches, Matches.same⟩
  rw [hmatches]
  exact Matches.isBisimulation rules who True

theorem Same.note (h : Same p p') (n n' : Notice) : Same (p.note n) (p'.note n') :=
  ⟨h.world, h.events⟩

theorem Same.start (h : Same p p') : Same p.start p'.start where
  world := congrArg
    (fun w : World => { w with status := .running, message := "Running..." }) h.world
  events := h.events

theorem Same.finish (h : Same p p') : Same p.finish p'.finish := by
  unfold Play.finish
  rw [h.world]
  split
  · refine ⟨?_, h.events⟩
    unfold setMessage setStatus
    rw [h.world]
  · exact h

theorem Same.result (h : Same p p') : p'.result = p.result := by
  unfold Play.result
  rw [h.world, h.events]

theorem Same.runToEnd (h : Same p p') (rules : Rules) (first second : Program) :
    Same (p.runToEnd rules first second) (p'.runToEnd rules first second) := by
  have hturns : p'.schedule first second = p.schedule first second := by
    unfold schedule
    rw [h.world]
  rw [runToEnd_eq_takeTurns, runToEnd_eq_takeTurns, hturns]
  exact (takeTurns_related (same_isBisimulation rules) h.start _).finish

/-- Runs of programs that come to the same, with the second one or without, have the same result. -/
theorem Same.run_of {first first' second second' : Program} (h : Same p p')
    (hfirst : first'.isEmpty = first.isEmpty) (hsecond : second'.isEmpty = second.isEmpty)
    (hpair : ∀ {q q'}, Same p q → Same q q' →
      Same (q.runToEnd rules first second) (q'.runToEnd rules first' second'))
    (halone : ∀ {q q'}, Same p q → Same q q' →
      Same (q.runToEnd rules first []) (q'.runToEnd rules first' [])) :
    Same (p.run rules first second).1 (p'.run rules first' second').1 ∧
      (p'.run rules first' second').2 = (p.run rules first second).2 := by
  have goesOn {q q' : Play} {second second' : Program} (hq : Same q q')
      (hrun : Same (q.runToEnd rules first second) (q'.runToEnd rules first' second')) :
      Same (if q.world.ended then q else q.runToEnd rules first second)
        (if q'.world.ended then q' else q'.runToEnd rules first' second') := by
    rw [hq.world]
    split
    · exact hq
    · exact hrun
  unfold Play.run
  rw [h.world, hfirst, hsecond]
  dsimp only
  split
  · have hnote := h.note .secondIgnored .secondIgnored
    split
    · exact ⟨hnote, by rw [hnote.result]⟩
    · have hend := goesOn hnote (halone ⟨rfl, rfl⟩ hnote)
      exact ⟨hend.note _ _, hend.result⟩
  · rw [hsecond]
    split
    · exact ⟨h, by rw [h.result]⟩
    · have hend := goesOn h (hpair ⟨rfl, rfl⟩ h)
      exact ⟨hend.note _ _, hend.result⟩

/-- What the log was told before a run has no part in it. -/
theorem Same.run (h : Same p p') (rules : Rules) (first second : Program) :
    Same (p.run rules first second).1 (p'.run rules first second).1 ∧
      (p'.run rules first second).2 = (p.run rules first second).2 :=
  h.run_of rfl rfl (fun _ hq => hq.runToEnd rules first second)
    fun _ hq => hq.runToEnd rules first []

end Same

/-- `p'` is `k` counts behind `p`, and agrees with it in all else. -/
abbrev Behind (k : Nat) (p p' : Play) : Prop := Matches (fun n n' => n = n' + k) True p p'

/-- A play that is behind follows one that is not cut short. -/
theorem behind_simulates (rules : Rules) (who : Actor) (k : Nat) :
    Simulates rules who (Behind k) where
  halted := fun h => h.toAgrees.halted who
  eval := (Matches.isCongruence rules who _ True).eval
  tell := Matches.tell
  perform := fun h hh =>
    (Matches.isCongruence rules who _ True).perform h hh ((h.toAgrees.halted who).trans hh)
  skip := fun h _ => h.record who .malformed ""
  tick := by
    intro p p' q h _ ht
    obtain ⟨hl, rfl⟩ := eq_of_tick ht
    have hsteps := h.steps
    refine ⟨_, tick_of_le rules p' (by omega), h.count ?_⟩
    omega

end BunnyGrid.Play
