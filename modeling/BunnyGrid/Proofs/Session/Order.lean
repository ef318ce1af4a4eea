import BunnyGrid.Proofs.Play.Order
import BunnyGrid.Proofs.Session.Independence

/-! On a map with two bunnies a run goes through the blocks of both programs once, by turns. -/
namespace BunnyGrid

namespace Play

variable {rules : Rules} {first second : Program} {p : Play}

theorem run_of_pair (rules : Rules) (hn : p.world.bunnies.length = 2) (he : p.world.ended = false)
    (hsome : ¬ (first = [] ∧ second = [])) :
    let q := p.runToEnd rules first second
    p.run rules first second = (q.note (.runFinished q.world.status q.world.steps), q.result) := by
  have hignores : ¬ (p.world.bunnies.length = 1 ∧ !second.isEmpty) := by omega
  have hruns : ¬ (first.isEmpty && second.isEmpty) = true := by
    simpa only [Bool.and_eq_true, List.isEmpty_iff] using hsome
  unfold run
  dsimp only
  rw [if_neg hignores, if_neg hignores, if_neg hruns, he]
  rfl

theorem schedule_of_pair (hn : p.world.bunnies.length = 2) :
    p.schedule first second = mergedTurns (.ofSlot 0) (.ofSlot 1) first second := by
  have hne : ¬ p.world.bunnies.length = 1 := by omega
  unfold schedule
  rw [if_neg hne]

end Play

namespace Session
open Play

variable {s : Session} {stage : Stage}

theorem continueWith_of_pair (hs : s.stage = some stage) (hpair : stage.world.bunnies.length = 2)
    (he : stage.world.ended = false) {first second : Program}
    (hsome : ¬ (first = [] ∧ second = [])) :
    let q := (stage.toPlay.start.takeTurns s.rules
      (mergedTurns (.ofSlot 0) (.ofSlot 1) first second)).finish
    (s.continueWith first second).session.stage = some (stage.after q) ∧
      (s.continueWith first second).value = q.result := by
  have hrun := run_of_pair (p := stage.toPlay) s.rules hpair he hsome
  rw [runToEnd_eq_takeTurns, schedule_of_pair hpair] at hrun
  rw [continueWith_of_stage hs]
  dsimp only
  rw [hrun]
  exact ⟨rfl, rfl⟩

/-- In a world of two bunnies that is not over, running two programs is one pass over their blocks
by turns. Each block has one turn, in the order of its program, and a program beside an empty one
runs alone. -/
theorem pair_runs_by_turns (hs : s.stage = some stage) (hpair : stage.world.bunnies.length = 2)
    (he : stage.world.ended = false) (first second : Program) :
    let reply := s.continueWith first second
    let turns := mergedTurns (.ofSlot 0) (.ofSlot 1) first second
    let q := (stage.toPlay.start.takeTurns s.rules turns).finish
    (turns.filter (·.1 = .ofSlot 0)).map (·.2) = first ∧
    (turns.filter (·.1 = .ofSlot 1)).map (·.2) = second ∧
    (turns = [] → reply.session.stage = some stage ∧ reply.value.status = .emptyProgram) ∧
    (turns ≠ [] → reply.session.stage = some (stage.after q) ∧ reply.value = q.result) ∧
    (second = [] → q = (stage.toPlay.start.execAll s.rules (.ofSlot 0) first).finish) ∧
    (first = [] → q = (stage.toPlay.start.execAll s.rules (.ofSlot 1) second).finish) := by
  intro reply turns q
  have hfirst : turns.filter (·.1 = .ofSlot 0) = first.map (.ofSlot 0, ·) :=
    filter_mergedTurns_left (f := (· = .ofSlot 0)) (by decide) (by decide) first second
  have hsecond : turns.filter (·.1 = .ofSlot 1) = second.map (.ofSlot 1, ·) :=
    filter_mergedTurns_right (f := (· = .ofSlot 1)) (by decide) (by decide) first second
  have hempty : turns = [] ↔ first = [] ∧ second = [] := by
    constructor
    · intro h
      rw [h] at hfirst hsecond
      exact ⟨List.map_eq_nil_iff.mp hfirst.symm, List.map_eq_nil_iff.mp hsecond.symm⟩
    · rintro ⟨rfl, rfl⟩
      rfl
  refine ⟨?_, ?_, fun h => ?_, fun h => ?_, ?_, ?_⟩
  · rw [hfirst, List.map_map]
    exact List.map_id _
  · rw [hsecond, List.map_map]
    exact List.map_id _
  · have hnothing : stage.toPlay.HasNothing first second :=
      ⟨(hempty.mp h).1, .inl (hempty.mp h).2⟩
    obtain ⟨hsame, hstatus⟩ := continueWith_of_hasNothing hs hnothing
    exact ⟨(congrArg Session.stage hsame).trans hs, hstatus⟩
  · exact continueWith_of_pair hs hpair he (mt hempty.mpr h)
  · rintro rfl
    rw [execAll_eq_takeTurns, ← mergedTurns_nil_right (.ofSlot 0) (.ofSlot 1)]
  · rintro rfl
    rw [execAll_eq_takeTurns]
    rfl

/-- The first bunny leaves the map in its third block, and its last one is skipped. -/
theorem pair_runs_by_turns_pair :
    let hop : Block := .act (.jump .ahead (.plain 1))
    let right : Block := .act (.turn .right)
    let s := after {} [.install .pair]
    let q := ((Stage.ofBoard .pair).toPlay.start.takeTurns {}
      [(.ofSlot 0, right), (.ofSlot 1, right), (.ofSlot 0, hop), (.ofSlot 0, hop),
        (.ofSlot 0, hop)]).finish
    (s.continueWith [right, hop, hop, hop] [right]).value = q.result ∧
      q.world.steps = 4 ∧ q.world.status = .completed := by
  intro hop right s q
  have h := pair_runs_by_turns (s := s) rfl rfl rfl [right, hop, hop, hop] [right]
  exact ⟨(h.2.2.2.1 (List.cons_ne_nil _ _)).2, by decide, by decide⟩

end Session
end BunnyGrid
