import BunnyGrid.Proofs.Play.Ownership
import BunnyGrid.Proofs.Session.Actors
import BunnyGrid.Proofs.Session.Independence

/-! What is done to one bunny of a session touches what is its own, and no more. -/
namespace BunnyGrid

/-- The bunny that an index in range names, counting from the end if it is negative. -/
def Actor.named (count : Nat) (index : Int) : Actor := ⟨(index % count).toNat, index⟩

theorem Actor.ofIndex?_of_range {count : Nat} {index : Int} (hlow : -(count : Int) ≤ index)
    (hhigh : index < count) : ofIndex? count index = some (named count index) := by
  unfold ofIndex? named
  by_cases h : 0 ≤ index
  · rw [if_pos h, if_pos hhigh, Int.emod_eq_of_lt h hhigh]
  · have hsum : index % count = index + count := by
      rw [← Int.add_emod_right, Int.emod_eq_of_lt] <;> omega
    rw [if_neg h, if_pos (by omega), hsum]

namespace Session
open Play

/-- From a session on a stage to another one only the stage changes, and on it a bunny touched only
what is its own. -/
def TouchesOwn (who : Actor) (stage : Stage) (s s' : Session) : Prop :=
  ∃ stage' new, s' = { s with stage := some stage' } ∧ stage'.board = stage.board ∧
    Play.TouchesOwn who new stage.toPlay stage'.toPlay

variable {s : Session} {stage : Stage} {index : Int} {who : Actor}

theorem TouchesOwn.refl (hs : s.stage = some stage) (who : Actor) :
    TouchesOwn who stage s s := by
  refine ⟨stage, [], ?_, rfl, .refl who stage.toPlay⟩
  cases s
  cases hs
  rfl

/-- What a bunny plays on the stage touches what is its own. -/
theorem perform_touchesOwn {α : Type} {missing : α} {f : Play → Play × α}
    (hs : s.stage = some stage) (hf : Changes s.rules who stage.toPlay (f stage.toPlay).1) :
    TouchesOwn who stage s (s.perform missing f).session := by
  obtain ⟨new, hnew⟩ := hf.touchesOwn
  unfold perform
  rw [hs]
  refine ⟨stage.after (f stage.toPlay).1, new, rfl, rfl, ?_⟩
  exact ⟨hnew.count, hnew.others, hnew.log, hnew.own, hnew.size, hnew.kept, hnew.picked⟩

theorem actor?_of_range (hs : s.stage = some stage)
    (hlow : -(stage.world.bunnies.length : Int) ≤ index)
    (hhigh : index < stage.world.bunnies.length) :
    s.actor? index = .ok (.named stage.world.bunnies.length index) := by
  unfold actor?
  rw [hs]
  dsimp only
  rw [Actor.ofIndex?_of_range hlow hhigh]

theorem runBlocks_touchesOwn (hs : s.stage = some stage) (hwho : s.actor? index = .ok who)
    (program : Program) : ∃ reply, s.runBlocks index program = .ok reply ∧
      TouchesOwn who stage s reply.session := by
  unfold runBlocks
  split
  · exact ⟨_, rfl, .refl hs who⟩
  · rw [hwho]
    have hchanges : Changes s.rules who stage.toPlay _ :=
      (execAll_runs program stage.toPlay).changes
    exact ⟨_, rfl, perform_touchesOwn hs hchanges⟩

theorem stepTask_touchesOwn {t : Turns} (hs : s.stage = some stage)
    (hwho : s.actor? t.index = .ok who) : ∃ reply, s.stepTask t = .ok reply ∧
      TouchesOwn who stage s reply.session := by
  unfold stepTask
  split
  · exact ⟨_, rfl, .refl hs who⟩
  split
  · exact ⟨_, rfl, .refl hs who⟩
  split
  · exact ⟨_, rfl, .refl hs who⟩
  · rw [hwho]
    let task : Task := { who, program := t.program, cursor := t.cursor, finished := t.finished }
    have hchanges := (Task.step_moves s.rules task stage.toPlay).changes
    exact ⟨_, rfl, perform_touchesOwn hs hchanges⟩

theorem mover_of_actor? (hwho : s.actor? index = .ok who) : s.mover index = who := by
  unfold mover
  rw [hwho]
  rfl

/-- On every stage, blocks that are run for a bunny, a single block, a step of a task of it, and a
turn or a jump of it come to an end, and touch only what is its own: the map, the rules and the step
program stay, as does all of every other bunny, new events are its own, and a cell changes only to
be emptied of a strawberry that one of these events tells of. -/
theorem bunny_touches_own (s : Session) (stage : Stage) (hs : s.stage = some stage) (index : Int)
    (hlow : -(stage.world.bunnies.length : Int) ≤ index)
    (hhigh : index < stage.world.bunnies.length) :
    let who := Actor.named stage.world.bunnies.length index
    (∀ program, ∃ reply, s.runBlocks index program = .ok reply ∧
      TouchesOwn who stage s reply.session) ∧
    (∀ block, ∃ new, Play.TouchesOwn who new stage.toPlay
      (stage.toPlay.exec s.rules who block)) ∧
    (∀ t : Turns, t.index = index → ∃ reply, s.stepTask t = .ok reply ∧
      TouchesOwn who stage s reply.session) ∧
    (∀ t, TouchesOwn who stage s (s.turn index t).session) ∧
    ∀ kind amount, TouchesOwn who stage s (s.jump index kind amount).session := by
  intro who
  have hwho : s.actor? index = .ok who := actor?_of_range hs hlow hhigh
  have hmover : s.mover index = who := mover_of_actor? hwho
  refine ⟨runBlocks_touchesOwn hs hwho, fun block => ?_, ?_, fun t => ?_, fun kind amount => ?_⟩
  · exact (exec_runs block stage.toPlay).changes.touchesOwn
  · rintro t rfl
    exact stepTask_touchesOwn hs hwho
  · unfold turn
    rw [hmover]
    exact perform_touchesOwn hs (.single (turn_change s.rules stage.toPlay who t))
  · unfold jump
    rw [hmover]
    exact perform_touchesOwn hs (jump_changes s.rules stage.toPlay who kind amount)

/-- The first bunny has left the map. Blocks for the second one, called by counting from the end,
leave it where it was. -/
theorem bunny_touches_own_pair :
    let s := after {} [.install .pair, .jump 0 .ahead 1]
    ∃ reply stage, s.runBlocks (-1) [.act (.setVar "n" (.literal (.int 2)))] = .ok reply ∧
      reply.session.stage = some stage ∧ stage.board.bunnyCount = 2 ∧
      stage.world.bunnies[0]? = some { x := 0, y := 0, active := false } := by
  intro s
  obtain ⟨stage, hs, hcount, hpair, hgone⟩ : ∃ stage, s.stage = some stage ∧
      stage.world.bunnies.length = 2 ∧ stage.board.bunnyCount = 2 ∧
      stage.world.bunnies[0]? = some { x := 0, y := 0, active := false } :=
    ⟨_, rfl, by decide, by decide, by decide⟩
  have htouches := bunny_touches_own s stage hs (-1) (by omega) (by omega)
  obtain ⟨reply, hreply, stage', new, hsession, hboard, hown⟩ :=
    htouches.1 [.act (.setVar "n" (.literal (.int 2)))]
  have hother : 0 ≠ (Actor.named stage.world.bunnies.length (-1)).slot := by
    rw [hcount]
    decide
  exact ⟨reply, stage', hreply, by rw [hsession], by rw [hboard, hpair],
    (hown.others 0 hother).trans hgone⟩

end Session
end BunnyGrid
