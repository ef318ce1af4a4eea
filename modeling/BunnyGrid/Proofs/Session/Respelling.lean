import BunnyGrid.Proofs.Play.Respelling
import BunnyGrid.Proofs.Session.Independence

/-! Sessions that run programs which write amounts in two ways. -/
namespace BunnyGrid

namespace Session
open Play

variable {s : Session} {stage : Stage} {first first' second second' : Program}

/-- The check before a run does not see how amounts are written. -/
theorem refusal?_respelt (s : Session) (hfirst : first.Respelt first')
    (hsecond : second.Respelt second') :
    s.refusal? [first', second'] = s.refusal? [first, second] := by
  have hempty : [first', second'].all (·.isEmpty) = [first, second].all (·.isEmpty) := by
    simp only [List.all_cons, hfirst.isEmpty_eq, hsecond.isEmpty_eq]
  have hlimit (limit : Int) :
      overLimit? limit 1 [first', second'] = overLimit? limit 1 [first, second] := by
    simp only [overLimit?, hfirst.count_eq, hsecond.count_eq]
  unfold refusal?
  rw [hempty]
  simp only [hlimit]

theorem continueWith_respelt (hs : s.stage = some stage)
    (hw : stage.world.WellFormed stage.board) (hsize : stage.board.grid.size < 2 ^ 53)
    (hlimit : s.rules.stepLimit < 2 ^ 53) (hfirst : first.Respelt first')
    (hsecond : second.Respelt second') :
    (s.continueWith first' second').value = (s.continueWith first second).value ∧
      (s.continueWith first' second').session = (s.continueWith first second).session := by
  have hplay : stage.toPlay.world.WellFormed stage.board := hw
  obtain ⟨hsame, hvalue⟩ := run_respelt hfirst hsecond hplay hsize hlimit
  rw [continueWith_of_stage hs, continueWith_of_stage hs]
  refine ⟨hvalue, ?_⟩
  unfold Stage.after
  rw [hsame.world, hsame.events]

/-- On every map with bunnies on its grid, with fewer rows than `2 ^ 53` and with a step limit below
that, it makes no difference to a run whether an amount, at any depth, is written as a plain number
or as a literal, if the number is below the bound of doubles. From that bound on the literal counts
as zero. -/
theorem run_ignores_spelling (s : Session) (stage : Stage) (hs : s.stage = some stage)
    (hplaced : ∀ st ∈ stage.board.starts, stage.board.grid.contains st.x st.y = true)
    (hsize : stage.board.grid.size < 2 ^ 53) (hlimit : s.rules.stepLimit < 2 ^ 53)
    (first first' second second' : Program) (hfirst : first.Respelt first')
    (hsecond : second.Respelt second') :
    (s.run first' second').value = (s.run first second).value ∧
      (s.run first' second').session = (s.run first second).session := by
  unfold run
  rw [refusal?_respelt s hfirst hsecond]
  cases s.refusal? [first, second] with
  | some r => exact ⟨rfl, rfl⟩
  | none =>
    have hw : stage.reset.world.WellFormed stage.reset.board :=
      World.ofBoard_wellFormed_of_placed hplaced
    exact continueWith_respelt (reset_stage hs) hw hsize hlimit hfirst hsecond

/-- A double only comes near to the number, which is written as a literal in a loop of the first
bunny and in a jump of the second. -/
theorem run_ignores_spelling_large :
    let n : Int := 2 ^ 60 + 1
    let literal : Amount := .expr (.literal (.int n))
    let jump (amount : Amount) : Block := .act (.jump .right amount)
    let s := after { stepLimit := 5 } [.install .pair]
    (s.run [.repeatLoop literal []] [jump literal]).value =
        (s.run [.repeatLoop (.plain n) []] [jump (.plain n)]).value ∧
      (s.run [.repeatLoop (.plain n) []] [jump (.plain n)]).value.status = .runawayLoop := by
  intro n literal jump s
  have hliteral : Amount.Respelt (.plain n) literal := .literal (by decide +kernel)
  have hplaced : ∀ st ∈ Board.pair.starts, Board.pair.grid.contains st.x st.y = true := by decide
  have hloop : Program.Respelt [.repeatLoop (.plain n) []] [.repeatLoop literal []] :=
    .cons (.repeatLoop hliteral .nil) .nil
  have hjump : Program.Respelt [jump (.plain n)] [jump literal] := .cons (.jump hliteral) .nil
  have hrun := run_ignores_spelling s (.ofBoard .pair) rfl hplaced (by decide) (by decide)
    _ _ _ _ hloop hjump
  exact ⟨hrun.1, by decide +kernel⟩

/-- A literal that is too large for a double counts as zero, so the bunny that leaves the map by the
plain amount stays. Where a bunny starts off the grid, it may jump onto it from farther than the
numbers reach that doubles hold exactly. -/
theorem run_ignores_spelling_not :
    let literal (n : Int) : Amount := .expr (.literal (.int n))
    let ahead (amount : Amount) : Program := [.act (.jump .ahead amount)]
    let s := after {} [.install .least]
    let far := after {} [.install { grid := .blank 2, first := ⟨-2 ^ 60, 0, .right⟩ }]
    (Board.least.grid.size < 2 ^ 53 ∧ s.rules.stepLimit < 2 ^ 53) ∧
    (s.run (ahead (.plain doubleBound)) []).value.status = .boundaryExit ∧
    (s.run (ahead (literal doubleBound)) []).value.status = .completed ∧
    (far.run (ahead (.plain (2 ^ 60 + 1))) []).session.events.map (·.x) = #[1] ∧
    (far.run (ahead (literal (2 ^ 60 + 1))) []).session.events.map (·.x) = #[0] := by
  decide +kernel

end Session
end BunnyGrid
