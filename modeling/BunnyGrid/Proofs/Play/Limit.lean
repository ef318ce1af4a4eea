import BunnyGrid.Proofs.Play.Simulation
import BunnyGrid.Proofs.Play.Walk

/-! Runs under a step limit and under a higher one. Only a count looks at the limit, so such runs
make the same moves until the lower limit cuts the first one short; from there on the first stands
still and the other can only go further. -/
namespace BunnyGrid

/-- The rules with another step limit. -/
def Rules.limited (rules : Rules) (limit : Int) : Rules := { rules with stepLimit := limit }

namespace Play

/-- A play was cut short by the step limit where another one went on. -/
structure CutShort (p p' : Play) : Prop where
  cut : p.world.IsCut
  log : p.events.toList <+: p'.events.toList
  steps : p.world.steps ≤ p'.world.steps

section Moves

variable {rules : Rules} {limit : Int} {who : Actor} {p : Play}

/-- An action does not look at the step limit. -/
theorem perform_limited (rules : Rules) (limit : Int) (who : Actor) (p : Play) (a : Action) :
    p.perform (rules.limited limit) who a = p.perform rules who a := by
  cases a <;> rfl

theorem tick_limited (hle : rules.stepLimit ≤ limit) (p : Play) :
    p.tick (rules.limited limit) = p.tick rules ∨
      CutShort (p.tick rules).1 (p.tick (rules.limited limit)).1 := by
  by_cases hl : (p.world.steps : Int) + 1 ≤ rules.stepLimit
  · left
    have hl' : (p.world.steps : Int) + 1 ≤ (rules.limited limit).stepLimit := Int.le_trans hl hle
    rw [tick_of_le rules p hl, tick_of_le (rules.limited limit) p hl']
  · right
    obtain ⟨hflag, -, -⟩ := tick_of_lt rules p (Int.not_le.mp hl)
    have hlog : (p.tick rules).1.events = (p.tick (rules.limited limit)).1.events := by
      rw [tick_events, tick_events]
    have hsteps : (p.tick rules).1.world.steps = (p.tick (rules.limited limit)).1.world.steps := by
      rw [tick_steps, tick_steps]
    exact ⟨isCut_of_tick (Prod.ext rfl hflag), hlog ▸ List.prefix_rfl, Nat.le_of_eq hsteps⟩

theorem enter_limited (hle : rules.stepLimit ≤ limit) (who : Actor) (p : Play) :
    p.enter (rules.limited limit) who = p.enter rules who ∨
      CutShort (p.enter rules who).1 (p.enter (rules.limited limit) who).1 := by
  unfold enter
  split
  · exact .inl rfl
  · exact tick_limited hle p

/-- Under a higher limit a move is the same, or the lower limit cuts the play short in it. -/
theorem advance_limited (hle : rules.stepLimit ≤ limit) (who : Actor) (p : Play) (c : Code) :
    c.advance (rules.limited limit) who p = c.advance rules who p ∨
      CutShort (c.advance rules who p).2 (c.advance (rules.limited limit) who p).2 := by
  have entered (p : Play) (left : List Code) :
      (if (p.enter (rules.limited limit) who).2 then left else [],
          (p.enter (rules.limited limit) who).1) =
        (if (p.enter rules who).2 then left else [], (p.enter rules who).1) ∨
      CutShort (p.enter rules who).1 (p.enter (rules.limited limit) who).1 := by
    refine (enter_limited hle who p).imp_left fun h => ?_
    rw [h]
  cases c with
  | block b =>
    left
    cases b with
    | act a =>
      unfold Code.advance
      dsimp only
      rw [perform_limited]
    | branch | whileLoop | repeatLoop | unknown => rfl
  | blocks bs =>
    cases bs with
    | nil => exact .inl rfl
    | cons b rest => exact entered p _
  | loop condition body =>
    unfold Code.advance
    dsimp only
    split
    · exact entered _ _
    · exact .inl rfl
  | rounds n body =>
    cases n with
    | zero => exact .inl rfl
    | succ n => exact entered p _

end Moves

section Runs

variable {rules rules' : Rules} {limit : Int} {jobs jobs' : List (Actor × Code)} {p p' q q' : Play}
  {ps ps' : List Play}

/-- A play that is cut short stays behind whatever the other goes on with. -/
theorem CutShort.walk (h : CutShort p p') (hw : Walk rules jobs p ps q)
    (hw' : Walk rules' jobs' p' ps' q') : CutShort q q' := by
  obtain ⟨hworld, hevents⟩ := hw.frozen h.cut.1
  obtain ⟨hlog, hsteps⟩ := hw'.extends
  refine ⟨by rw [hworld]; exact h.cut, ?_, ?_⟩
  · rw [hevents]
    exact h.log.trans hlog
  · rw [hworld]
    exact Nat.le_trans h.steps hsteps

/-- Under a higher limit a walk comes to the same end, unless the lower limit cuts it short. -/
theorem Walk.limited (hle : rules.stepLimit ≤ limit) (hw : Walk rules jobs p ps q)
    (hw' : Walk (rules.limited limit) jobs p ps' q') : q' = q ∨ CutShort q q' := by
  -- Up to the cut both walks are at the same play, hence the induction needs no relation of plays.
  induction hw generalizing ps' with
  | done =>
    cases hw'
    exact .inl rfl
  | @next who c codes rest p q ps r ha hrest ih =>
    cases hw' with
    | next ha' hrest' =>
      have hmove := advance_limited hle who p c
      rw [ha, ha'] at hmove
      rcases hmove with hsame | hcut
      · cases hsame
        exact ih hrest'
      · exact .inr (hcut.walk hrest hrest')

theorem CutShort.finish (h : CutShort p p') : CutShort p.finish p'.finish := by
  have hstill : p.finish = p := finish_of_not_running (by rw [h.cut.2]; decide)
  rw [hstill]
  refine ⟨h.cut, ?_, ?_⟩
  · rw [finish_events]
    exact h.log
  · rw [finish_steps]
    exact h.steps

theorem runToEnd_limited (hle : rules.stepLimit ≤ limit) (first second : Program) (p : Play) :
    p.runToEnd (rules.limited limit) first second = p.runToEnd rules first second ∨
      CutShort (p.runToEnd rules first second) (p.runToEnd (rules.limited limit) first second) := by
  let turns := p.schedule first second
  obtain ⟨ps, hw⟩ := takeTurns_walk rules turns p.start
  obtain ⟨ps', hw'⟩ := takeTurns_walk (rules.limited limit) turns p.start
  rw [runToEnd_eq_takeTurns, runToEnd_eq_takeTurns]
  rcases hw.limited hle hw' with hsame | hcut
  · rw [hsame]
    exact .inl rfl
  · exact .inr hcut.finish

/-- Under a higher limit a run is the same, unless the lower limit cuts it short. -/
theorem run_limited (hle : rules.stepLimit ≤ limit) (first second : Program) (p : Play) :
    p.run (rules.limited limit) first second = p.run rules first second ∨
      ∃ q q', CutShort q q' ∧ (p.run rules first second).2 = q.result ∧
        (p.run (rules.limited limit) first second).2 = q'.result := by
  have ended (second : Program) (p : Play) :
      (if p.world.ended then p else p.runToEnd (rules.limited limit) first second) =
        (if p.world.ended then p else p.runToEnd rules first second) ∨
      CutShort (if p.world.ended then p else p.runToEnd rules first second)
        (if p.world.ended then p else p.runToEnd (rules.limited limit) first second) := by
    split
    · exact .inl rfl
    · exact runToEnd_limited hle first second p
  unfold run
  dsimp only
  generalize (if p.world.bunnies.length = 1 ∧ !second.isEmpty then [] else second) = used
  generalize (if p.world.bunnies.length = 1 ∧ !second.isEmpty then p.note .secondIgnored else p) = r
  split
  · exact .inl rfl
  · rcases ended used r with hsame | hcut
    · rw [hsame]
      exact .inl rfl
    · exact .inr ⟨_, _, hcut, rfl, rfl⟩

end Runs
end Play
end BunnyGrid
