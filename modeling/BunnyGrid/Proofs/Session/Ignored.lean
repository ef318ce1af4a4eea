import BunnyGrid.Proofs.Play.Matching
import BunnyGrid.Proofs.Session.Refusal

/-! A second program on a map with one bunny. It is never run, but the check that comes before a
run looks at it. -/
namespace BunnyGrid

/-- Whether the check before a run heeds a second program that a single bunny has no use for: the
program stands in for an empty first one, or it alone has too many blocks. -/
def Board.Heeds (b : Board) (first second : Program) : Prop :=
  second ≠ [] ∧
    (first = [] ∨ (first.count : Int) ≤ b.blockLimit ∧ b.blockLimit < second.count)

theorem Board.not_heeds_iff {b : Board} {first second : Program} :
    ¬ b.Heeds first second ↔ second = [] ∨
      first ≠ [] ∧ (b.blockLimit < first.count ∨ (second.count : Int) ≤ b.blockLimit) := by
  unfold Heeds
  by_cases hsecond : second = []
  · simp [hsecond]
  · simp only [hsecond]
    grind

namespace Play

/-- A single bunny runs the first program, whatever the second one is. -/
theorem run_alone (rules : Rules) (first second : Program) {p : Play}
    (hone : p.world.bunnies.length = 1) :
    Same (p.run rules first []).1 (p.run rules first second).1 ∧
      (p.run rules first second).2 = (p.run rules first []).2 := by
  by_cases hsecond : second = []
  · rw [hsecond]
    exact ⟨⟨rfl, rfl⟩, rfl⟩
  · have hignored : p.run rules first second = (p.note .secondIgnored).run rules first [] :=
      run_of_ignored ⟨hone, by simpa using hsecond⟩
    have htold : Same p (p.note .secondIgnored) := ⟨rfl, rfl⟩
    rw [hignored]
    exact htold.run rules first []

end Play

namespace Session
open Play

variable {s : Session} {stage : Stage} {first second : Program}

/-- After every history there are as many bunnies as the map has places for. -/
theorem after_bunnies_length {rules : Rules} {history : List Operation}
    (hs : (after rules history).stage = some stage) :
    stage.world.bunnies.length = stage.board.bunnyCount := by
  let I (stage : Stage) : Prop := stage.world.bunnies.length = stage.board.bunnyCount
  have hnew (board : Board) : I (.ofBoard board) := reset_bunnies_length (.ofBoard board)
  have hplay (stage : Stage) (q : Play) (hq : Steps rules stage.toPlay q) (h : I stage) :
      I (stage.after q) := hq.bunnies_length.trans h
  have hscore (stage : Stage) (slot : Nat) (score : Int) (h : I stage) :
      I { stage with world := stage.world.mapBunny slot fun b => { b with score } } :=
    (List.length_modify ..).trans h
  exact after_kept hnew hplay hscore history hs

theorem continueWith_ignores (hs : s.stage = some stage) (hone : stage.world.bunnies.length = 1) :
    (s.continueWith first second).value = (s.continueWith first []).value ∧
      (s.continueWith first second).session = (s.continueWith first []).session := by
  have hlone : stage.toPlay.world.bunnies.length = 1 := hone
  obtain ⟨hsame, hvalue⟩ := run_alone s.rules first second hlone
  rw [continueWith_of_stage hs, continueWith_of_stage hs]
  dsimp only
  refine ⟨hvalue, ?_⟩
  unfold Stage.after
  rw [hsame.world, hsame.events]

theorem passes_alone (hs : s.stage = some stage) (hfirst : first ≠ [])
    (hshort : (first.count : Int) ≤ stage.board.blockLimit) : s.refusal? [first, []] = none := by
  have hzero : Program.count [] = 0 := rfl
  exact (refusal?_pair_eq_none hs).mpr ⟨fun h => hfirst h.1, hshort, by omega⟩

/-- A first program that is too long is refused whatever the second one is. -/
theorem run_of_first_too_long (hs : s.stage = some stage) (hfirst : first ≠ [])
    (hlong : stage.board.blockLimit < first.count) :
    s.run first second = s.run first [] := by
  have hrefusal (second : Program) :
      s.refusal? [first, second] = overLimit? stage.board.blockLimit 1 [first] := by
    simp [refusal?, hs, overLimit?, hlong, hfirst]
  unfold run
  rw [hrefusal, hrefusal]
  simp [overLimit?, hlong]

/-- A run does not depend on a second program that the check does not heed. -/
theorem run_ignores (hs : s.stage = some stage) (hone : stage.board.bunnyCount = 1)
    (hheeds : ¬ stage.board.Heeds first second) :
    (s.run first second).value = (s.run first []).value ∧
      (s.run first second).session = (s.run first []).session := by
  rcases Board.not_heeds_iff.mp hheeds with hsecond | ⟨hfirst, hlimit⟩
  · rw [hsecond]
    exact ⟨rfl, rfl⟩
  · by_cases hlong : stage.board.blockLimit < first.count
    · rw [run_of_first_too_long hs hfirst hlong]
      exact ⟨rfl, rfl⟩
    · have hshort : (first.count : Int) ≤ stage.board.blockLimit := by omega
      have hpass : s.refusal? [first, second] = none :=
        (refusal?_pair_eq_none hs).mpr ⟨fun h => hfirst h.1, hshort, hlimit.resolve_left hlong⟩
      unfold run
      rw [hpass, passes_alone hs hfirst hshort]
      exact continueWith_ignores (reset_stage hs) ((reset_bunnies_length stage).trans hone)

/-- The result of a run that is heeded for its second program alone. -/
theorem run_nil_value_ne (hs : s.stage = some stage) (hone : stage.board.bunnyCount = 1)
    (hsecond : second ≠ []) : (s.run [] second).value.status.isRefusal = true ∧
      (s.run [] second).value ≠ (s.run [] []).value := by
  have halone : (s.run [] []).value =
      { status := .emptyProgram, message := "Build a program first" } := by
    simp [run, refusal?, hs]
  rw [halone]
  cases hrefusal : s.refusal? [[], second] with
  | none =>
    -- The check passes, and the world is put back before the program is dropped.
    have hnone : stage.reset.toPlay.HasNothing [] second :=
      ⟨rfl, .inr ((reset_bunnies_length stage).trans hone)⟩
    obtain ⟨-, -, hvalue⟩ := run_of_hasNothing s.reset.rules hnone
    have hrun : (s.run [] second).value =
        { stage.reset.toPlay.result with
          status := .emptyProgram, message := "Build a program first" } := by
      unfold run
      rw [hrefusal]
      dsimp only
      rw [continueWith_of_stage (reset_stage hs)]
      exact hvalue
    rw [hrun]
    refine ⟨rfl, fun h => ?_⟩
    have hactive := congrArg (·.active.length) h
    simp only [Play.result, List.length_map, List.length_nil] at hactive
    rw [reset_bunnies_length, hone] at hactive
    cases hactive
  | some r =>
    have hlimit : overLimit? stage.board.blockLimit 1 [[], second] = some r := by
      rw [← hrefusal]
      simp [refusal?, hs, hsecond]
    have hrun : (s.run [] second).value = r := by
      unfold run
      rw [hrefusal]
    rw [hrun]
    refine ⟨isRefusal_of_overLimit? hlimit, ?_⟩
    rw [eq_of_overLimit? hlimit]
    simp

/-- A run that is heeded for the length of its second program is refused for it. -/
theorem run_of_second_too_long (hs : s.stage = some stage) (hfirst : first ≠ [])
    (hshort : (first.count : Int) ≤ stage.board.blockLimit)
    (hlong : stage.board.blockLimit < second.count) :
    (s.run first second).value.status = .blockLimitExceeded := by
  have hrefusal : s.refusal? [first, second] = overLimit? stage.board.blockLimit 2 [second] := by
    simp [refusal?, hs, overLimit?, Int.not_lt.mpr hshort, hfirst]
  unfold run
  rw [hrefusal]
  simp [overLimit?, hlong]

/-- A run of a first program alone that is not too long is not refused. -/
theorem run_alone_not_refused (hc : s.Coherent) (hs : s.stage = some stage) (hfirst : first ≠ [])
    (hshort : (first.count : Int) ≤ stage.board.blockLimit) :
    (s.run first []).value.status.isRefusal = false := by
  refine run_not_refused hc (passes_alone hs hfirst hshort) ?_
  rintro ⟨_, _, _, _, h, _⟩
  exact h rfl

/-- On a map with one bunny a run does not depend on a second program, unless the check before it
heeds the program: it is refused then, also where the first program alone runs. A run that goes on
from where the world stands never depends on it. -/
theorem second_heeded_iff (rules : Rules) (history : List Operation) (stage : Stage)
    (hs : (after rules history).stage = some stage) (hone : stage.board.bunnyCount = 1)
    (first second : Program) :
    let s := after rules history
    ((s.run first second).value = (s.run first []).value ∧
        (s.run first second).session = (s.run first []).session ↔
      ¬ stage.board.Heeds first second) ∧
    (stage.board.Heeds first second → (s.run first second).value.status.isRefusal = true ∧
      (first ≠ [] → (s.run first []).value.status.isRefusal = false)) ∧
    (s.continueWith first second).value = (s.continueWith first []).value ∧
    (s.continueWith first second).session = (s.continueWith first []).session := by
  intro s
  have hc : s.Coherent := after_coherent rules history
  have hlone : stage.world.bunnies.length = 1 := (after_bunnies_length hs).trans hone
  have heeded (hheeds : stage.board.Heeds first second) :
      (s.run first second).value.status.isRefusal = true ∧
        (s.run first second).value ≠ (s.run first []).value ∧
        (first ≠ [] → (s.run first []).value.status.isRefusal = false) := by
    obtain ⟨hsecond, hwhy⟩ := hheeds
    by_cases hfirst : first = []
    · subst hfirst
      obtain ⟨hrefused, hne⟩ := run_nil_value_ne hs hone hsecond
      exact ⟨hrefused, hne, fun h => absurd rfl h⟩
    · obtain ⟨hshort, hlong⟩ := hwhy.resolve_left hfirst
      have hstatus := run_of_second_too_long hs hfirst hshort hlong
      have hrefused : (s.run first second).value.status.isRefusal = true := by
        rw [hstatus]
        rfl
      have hruns := run_alone_not_refused hc hs hfirst hshort
      refine ⟨hrefused, fun h => ?_, fun _ => hruns⟩
      rw [h, hruns] at hrefused
      cases hrefused
  refine ⟨⟨fun h hheeds => (heeded hheeds).2.1 h.1, run_ignores hs hone⟩, fun hheeds => ?_,
    continueWith_ignores hs hlone⟩
  exact ⟨(heeded hheeds).1, (heeded hheeds).2.2⟩

/-- A second program within the limit changes nothing, also after a runaway loop. -/
theorem second_heeded_iff_short :
    let right : Block := .act (.turn .right)
    let s := after { stepLimit := 3 } [.install .least, .run .spin []]
    (s.run [right] [right]).value = (s.run [right] []).value ∧
      s.status = .runawayLoop ∧ (s.run [right] [right]).value.status = .completed := by
  intro right s
  obtain ⟨stage, hs, hone, hlimit⟩ : ∃ stage, s.stage = some stage ∧
      stage.board.bunnyCount = 1 ∧ 1 ≤ stage.board.blockLimit := ⟨_, rfl, by decide, by decide⟩
  have hheeds : ¬ stage.board.Heeds [right] [right] :=
    Board.not_heeds_iff.mpr (.inr ⟨by simp, .inr hlimit⟩)
  have hheeded := second_heeded_iff { stepLimit := 3 } _ stage hs hone [right] [right]
  exact ⟨(hheeded.1.mpr hheeds).1, by decide, by decide⟩

/-- A second program that is too long for the map stops the run of one bunny that could not use it,
and one beside an empty first program puts the world back. -/
theorem second_heeded_early :
    let right : Block := .act (.turn .right)
    let s := after {} [.install { Board.least with blockLimit := 1 }, .run [right] []]
    (s.run [right] []).value.status = .completed ∧
      (s.run [right] [right, right]).value.status = .blockLimitExceeded ∧
      (s.run [] []).session.status = .completed ∧ (s.run [] [right]).session.status = .idle := by
  decide

end Session
end BunnyGrid
