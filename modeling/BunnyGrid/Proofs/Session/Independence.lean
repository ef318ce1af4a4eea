import BunnyGrid.Proofs.Play.Independence
import BunnyGrid.Proofs.Session.Refusal

/-! On a map with two bunnies the way of each depends on its own program only. -/
namespace BunnyGrid

/-- A map with two bunnies that face its edge. -/
def Board.pair : Board where
  grid := .blank 2
  first := ⟨0, 0, .up⟩
  second := some ⟨1, 0, .up⟩

namespace Session
open Play

variable {s : Session} {stage : Stage} {first second : Program}

/-- A run of two bunnies that the step limit does not end is a play by turns. -/
theorem alternates_of_run (hs : s.stage = some stage) (hpair : stage.board.bunnyCount = 2)
    (h : (s.run first second).value.status.isRefusal = false)
    (hcut : (s.run first second).value.status ≠ .runawayLoop) :
    ∃ told q, Task.Alternates s.rules { who := .ofSlot 0, program := first }
        { who := .ofSlot 1, program := second }
        (start { stage.reset.toPlay with notices := told }) q ∧
      ¬ q.world.IsCut ∧ (s.run first second).session.stage = some (stage.reset.after q.finish) := by
  obtain ⟨told, r, hr, hstage, hvalue⟩ := ends_of_run hs h
  have hcount := reset_bunnies_length stage
  rw [hvalue] at hcut
  cases hr with
  | ended h => cases h
  | alone _ hn _ =>
    have hone : stage.reset.toPlay.world.bunnies.length = 1 := hn
    omega
  | @pair q _ _ hq =>
    exact ⟨told, q, hq, not_isCut_of_finish hcut, hstage⟩

/-- Each bunny of a run by turns comes to where its own program leads it alone. -/
theorem solo_of_run (hs : s.stage = some stage) (hpair : stage.board.bunnyCount = 2)
    (h : (s.run first second).value.status.isRefusal = false)
    (hcut : (s.run first second).value.status ≠ .runawayLoop) {slot : Nat} {program : Program}
    (hslot : slot = 0 ∧ program = first ∨ slot = 1 ∧ program = second) :
    ∃ q q' st, (s.run first second).session.stage = some st ∧
      st.world.bunnies = q.world.bunnies ∧ st.events = q.events ∧ slot < q.world.bunnies.length ∧
      Runs s.rules (.ofSlot slot) (.blocks program) stage.reset.toPlay.start q' ∧
      Alike (.ofSlot slot) q q' := by
  obtain ⟨told, q, hq, hnot, hstage⟩ := alternates_of_run hs hpair h hcut
  have hapart : (Actor.ofSlot 0).Apart (.ofSlot 1) := ⟨by decide, by decide⟩
  have hfair : IsFair (start { stage.reset.toPlay with notices := told }) :=
    isFair_of_not_ended rfl
  have hfair' : IsFair stage.reset.toPlay.start := isFair_of_not_ended rfl
  have hfares (who : Actor) :
      Fares who (start { stage.reset.toPlay with notices := told }) stage.reset.toPlay.start :=
    ⟨⟨rfl, rfl, fun _ _ => .rfl, rfl⟩, Nat.le_refl _, hfair, hfair'⟩
  have hlength : q.world.bunnies.length = 2 := by
    rw [hq.course.bunnies_length, ← hpair, ← reset_bunnies_length]
    rfl
  have hsound (who : Actor) (program : Program) :
      Task.Sound { who, program } (start { stage.reset.toPlay with notices := told }) := nofun
  obtain ⟨hfirst, hsecond⟩ :=
    hq.follows hapart hnot hfair (hsound _ first) (hsound _ second)
  rcases hslot with ⟨rfl, rfl⟩ | ⟨rfl, rfl⟩
  · obtain ⟨q', hrun, hend⟩ := hfirst _ (hfares _)
    exact ⟨q, q', _, hstage, finish_bunnies q, finish_events q, by omega, hrun, hend.alike⟩
  · obtain ⟨q', hrun, hend⟩ := hsecond _ (hfares _)
    exact ⟨q, q', _, hstage, finish_bunnies q, finish_events q, by omega, hrun, hend.alike⟩

/-- Two runs of a map with two bunnies, in which one of the bunnies has the same program, end for
this bunny at the same place, with the same facing, variables and moves, on or off the map, and its
events tell of the same places, facings and moves, unless a run is refused or passes the step
limit. -/
theorem bunny_independent (hs : s.stage = some stage) (hpair : stage.board.bunnyCount = 2)
    (first second first' second' : Program) (slot : Nat)
    (hsame : slot = 0 ∧ first' = first ∨ slot = 1 ∧ second' = second)
    (h : (s.run first second).value.status.isRefusal = false)
    (hcut : (s.run first second).value.status ≠ .runawayLoop)
    (h' : (s.run first' second').value.status.isRefusal = false)
    (hcut' : (s.run first' second').value.status ≠ .runawayLoop) :
    ∃ st st' b b', (s.run first second).session.stage = some st ∧
      (s.run first' second').session.stage = some st' ∧
      st.world.bunnies[slot]? = some b ∧ st'.world.bunnies[slot]? = some b' ∧
      b'.x = b.x ∧ b'.y = b.y ∧ b'.facing = b.facing ∧ b'.active = b.active ∧
      b'.vars = b.vars ∧ b'.moves = b.moves ∧
      Event.trail slot st'.events.toList = Event.trail slot st.events.toList := by
  obtain ⟨program, hslot, hslot'⟩ : ∃ program,
      (slot = 0 ∧ program = first ∨ slot = 1 ∧ program = second) ∧
      (slot = 0 ∧ program = first' ∨ slot = 1 ∧ program = second') := by
    rcases hsame with ⟨hzero, rfl⟩ | ⟨hone, rfl⟩
    · exact ⟨first', .inl ⟨hzero, rfl⟩, .inl ⟨hzero, rfl⟩⟩
    · exact ⟨second', .inr ⟨hone, rfl⟩, .inr ⟨hone, rfl⟩⟩
  obtain ⟨q, r, st, hst, hbunnies, hevents, hlt, hrun, hr⟩ := solo_of_run hs hpair h hcut hslot
  obtain ⟨q', r', st', hst', hbunnies', hevents', -, hrun', hr'⟩ :=
    solo_of_run hs hpair h' hcut' hslot'
  cases hrun.det hrun'
  have hq : Alike (.ofSlot slot) q q' := hr.trans hr'.symm
  have hb : q.bunny? (.ofSlot slot) = some q.world.bunnies[slot] := List.getElem?_eq_getElem hlt
  obtain ⟨b', hb', hunscored⟩ := hq.exists_bunny hb
  have hfield {α : Type} (f : Bunny → α) (hf : ∀ b, f b.unscored = f b) :
      f b' = f q.world.bunnies[slot] := by
    rw [← hf b', hunscored, hf]
  refine ⟨st, st', _, b', hst, hst', by rw [hbunnies]; exact hb, by rw [hbunnies']; exact hb',
    hfield (·.x) fun _ => rfl, hfield (·.y) fun _ => rfl, hfield (·.facing) fun _ => rfl,
    hfield (·.active) fun _ => rfl, hfield (·.vars) fun _ => rfl, hfield (·.moves) fun _ => rfl, ?_⟩
  rw [hevents, hevents']
  exact hq.trail

/-- The first bunny turns whether the second one turns too or jumps off the map. -/
theorem bunny_independent_pair :
    let s := after {} [.install .pair]
    ∃ st st' b b', (s.run [.act (.turn .right)] [.act (.turn .left)]).session.stage = some st ∧
      (s.run [.act (.turn .right)] [.act (.jump .ahead (.plain 1))]).session.stage = some st' ∧
      st.world.bunnies[0]? = some b ∧ st'.world.bunnies[0]? = some b' ∧ b'.facing = b.facing := by
  intro s
  obtain ⟨st, st', b, b', hst, hst', hb, hb', -, -, hfacing, -⟩ :=
    bunny_independent (s := s) rfl rfl [.act (.turn .right)] [.act (.turn .left)]
      [.act (.turn .right)] [.act (.jump .ahead (.plain 1))] 0 (.inl ⟨rfl, rfl⟩)
      (by decide) (by decide) (by decide) (by decide)
  exact ⟨st, st', b, b', hst, hst', hb, hb', hfacing⟩

end Session
end BunnyGrid
