import BunnyGrid.Command.Run
import BunnyGrid.Proofs.Play.Agreement
import BunnyGrid.Proofs.Session.Refusal

/-! Stepping through a program that can be written out comes to what a run of it comes to. -/
namespace BunnyGrid

namespace Session
open Play

/-- A session whose board was just loaded or put back. -/
structure IsFresh (s : Session) (board : Board) : Prop where
  stage : s.stage = some (.ofBoard board)
  cursor : s.cursor = 0
  plan : s.plan = none

theorem loadBoard_isFresh (s : Session) (board : Board) :
    (s.loadBoard board).session.IsFresh board := ⟨rfl, rfl, rfl⟩

theorem reset_isFresh {s : Session} {stage : Stage} (hs : s.stage = some stage) :
    s.reset.IsFresh stage.board := ⟨reset_stage hs, rfl, rfl⟩

/-- A stage's play after the first bunny was stepped through an action. -/
def stepped (rules : Rules) (stage : Stage) (a : Action) : Play :=
  (stage.toPlay.setStatus .running).exec rules (.ofSlot 0) (.act a)

/-- The actions that a session steps through. -/
def planned (s : Session) (program : Program) : List Action :=
  s.plan.getD (program.unroll (some s.rules.stepLimit)).actions

section Step

variable {rules : Rules} {s : Session} {stage : Stage} {program : Program} {plan : List Action}
  {p q : Play} {i : Nat}

/-- A play in which a step begins: it is running, unless it came to an end before. -/
def begun (p : Play) : Play := if p.world.status = .idle then p.setStatus .running else p

theorem begun_eq (hs : p.world.status = .idle ∨ p.world.status = .running) :
    begun p = p.setStatus .running := by
  unfold begun
  rcases hs with hs | hs
  · rw [if_pos hs]
  · rw [if_neg (by simp [hs]), setStatus, ← hs]

/-- A step performs the action at its place in the plan. -/
theorem runStep_of_some {a : Action} (he : stage.world.ended = false) (ha : plan[i]? = some a) :
    stage.toPlay.runStep rules (plan.map .act) i =
      ((begun stage.toPlay).exec rules (.ofSlot 0) (.act a), some ((i : Int) + 1)) := by
  have hblock : (plan.map Block.act)[i]? = some (.act a) := by
    rw [List.getElem?_map, ha]
    rfl
  have hnext : ¬ (stage.toPlay.world.ended = true ∨ (i : Int) < 0) := by simp [Stage.toPlay, he]
  unfold Play.runStep
  dsimp only
  rw [if_neg hnext, Int.toNat_natCast, hblock]
  rfl

theorem runStep_of_none (ha : plan[i]? = none) : p.runStep rules (plan.map .act) i = (p, none) := by
  have hblock : (plan.map Block.act)[i]? = none := by
    rw [List.getElem?_map, ha]
    rfl
  unfold Play.runStep
  simp [hblock]

theorem after_completeStep (stage : Stage) (q : Play) :
    (stage.after q).after (completeStep (stage.after q).toPlay) = stage.after (completeStep q) := by
  unfold completeStep Stage.after Stage.toPlay
  dsimp only
  split <;> rfl

theorem agrees_after (stage : Stage) (q : Play) : Agrees q (stage.after q).toPlay :=
  ⟨rfl, rfl, rfl, rfl, rfl⟩

/-- The next step of a plan performs its action. After the last one the run is completed. -/
theorem nextStep_of_some {a : Action} (hs : s.stage = some stage) (he : stage.world.ended = false)
    (ha : plan[s.cursor]? = some a) :
    let q := (begun stage.toPlay).exec s.rules (.ofSlot 0) (.act a)
    (s.nextStep plan).session = { s with
      stage := some (stage.after (if plan.length ≤ s.cursor + 1 then completeStep q else q))
      cursor := s.cursor + 1 } := by
  intro q
  have hran : stage.toPlay.runStep s.rules (plan.map .act) s.cursor =
      (q, some ((s.cursor : Int) + 1)) := runStep_of_some he ha
  have hcursor : (Option.map Int.toNat (some ((s.cursor : Int) + 1))).getD s.cursor =
      s.cursor + 1 := rfl
  unfold nextStep runStep perform
  rw [hs]
  dsimp only
  rw [hran]
  dsimp only
  rw [hcursor, Option.isNone_some, Bool.false_or]
  by_cases hend : plan.length ≤ s.cursor + 1
  · rw [if_pos hend, if_pos (decide_eq_true hend), after_completeStep]
  · rw [if_neg hend, if_neg (by simpa using hend)]
    rfl

/-- Past its end the run is completed. -/
theorem nextStep_of_none (hs : s.stage = some stage) (ha : plan[s.cursor]? = none) :
    (s.nextStep plan).session =
      { s with stage := some (stage.after (completeStep stage.toPlay)) } := by
  have hran : stage.toPlay.runStep s.rules (plan.map .act) s.cursor = (stage.toPlay, none) :=
    runStep_of_none ha
  unfold nextStep runStep perform
  rw [hs]
  dsimp only
  rw [hran]
  dsimp only
  rw [Option.isNone_none, Bool.true_or, if_pos rfl, after_completeStep]
  rfl

/-- A step in a world that is not over is the next step of the plan. -/
theorem step_eq_nextStep (hpass : s.refusal? [program] = none) (hs : s.stage = some stage)
    (he : stage.world.ended = false) :
    let plan := s.planned program
    (s.step program).session = ({ s with plan := some plan }.nextStep plan).session := by
  have hover (plan : List Action) : ({ s with plan := some plan } : Session).isOver = false := by
    simp [isOver, world?, hs, he]
  unfold planned step
  rw [hpass]
  cases s.plan with
  | none | some plan =>
    dsimp only
    rw [hover]
    rfl

/-- In a world that is over a step only plans. -/
theorem step_of_ended (hpass : s.refusal? [program] = none) (hs : s.stage = some stage)
    (he : stage.world.ended = true) :
    (s.step program).session = { s with plan := some (s.planned program) } := by
  have hover (plan : List Action) : ({ s with plan := some plan } : Session).isOver = true := by
    simp [isOver, world?, hs, he]
  unfold planned step
  rw [hpass]
  cases s.plan with
  | none | some plan =>
    dsimp only
    rw [hover]
    rfl

theorem completeStep_status (p : Play) : (completeStep p).world.status ≠ .running := by
  unfold completeStep
  split
  · simp [setMessage, setStatus]
  · simp_all

/-- What completes a stepped run completes a run as well. -/
theorem completeStep_agrees (h : p.world.status ≠ .idle) : Agrees p.finish (completeStep p) := by
  unfold finish completeStep
  by_cases hr : p.world.status = .running
  · rw [if_pos hr, if_pos (.inr hr)]
    exact ⟨rfl, rfl, rfl, rfl, rfl⟩
  · rw [if_neg hr, if_neg (not_or.mpr ⟨h, hr⟩)]
    exact .refl p

theorem completeStep_setStatus (h : p.world.status = .idle ∨ p.world.status = .running) :
    Agrees (p.setStatus .running).finish (completeStep p) := by
  have hrunning : (p.setStatus .running).world.status = .running := rfl
  unfold finish completeStep
  rw [if_pos hrunning, if_pos h]
  exact ⟨rfl, rfl, rfl, rfl, rfl⟩

end Step

section Walk

variable {s : Session} {stage : Stage} {program : Program} {plan : List Action} {n : Nat}

/-- A step leaves the world running, or it is over. -/
theorem stepped_cases {rules : Rules} (h : stage.world.Going rules.stepLimit.toNat) (a : Action) :
    let q := stepped rules stage a
    q.world.Going rules.stepLimit.toNat ∧ q.world.status = .running ∨
      q.world.ended = true ∧ q.world.status ≠ .running ∧ q.world.status ≠ .idle := by
  intro q
  let p := stage.toPlay.setStatus .running
  have hp : p.world.Going rules.stepLimit.toNat := h.mark _ (.inl rfl)
  have hcourse : Course rules p q := (exec_runs (.act a) p).changes.course
  have hq : q.world.Coherent rules.stepLimit.toNat := hcourse.steps.coherent hp.coherent
  cases hover : q.world.ended with
  | false =>
    have hgoing := hq.going hover
    have hstatus := hcourse.status
    simp only [hgoing.not_exit, hgoing.not_runaway, or_false] at hstatus
    exact .inl ⟨hgoing, hstatus⟩
  | true =>
    rcases hq.ended_iff.mp hover with h | h
    all_goals exact .inr ⟨rfl, by simp [h], by simp [h]⟩

/-- A session that has a plan and whose world is not over. -/
structure Ready (s : Session) (program : Program) (plan : List Action) (stage : Stage) : Prop where
  stage_eq : s.stage = some stage
  passes : s.refusal? [program] = none
  planned : s.planned program = plan
  going : stage.world.Going s.rules.stepLimit.toNat
  status : stage.world.status = .idle ∨ stage.world.status = .running

theorem Ready.step_of_some (h : s.Ready program plan stage) {a : Action}
    (ha : plan[s.cursor]? = some a) :
    let q := stepped s.rules stage a
    (s.step program).session = { s with
      stage := some (stage.after (if plan.length ≤ s.cursor + 1 then completeStep q else q))
      cursor := s.cursor + 1
      plan := some plan } := by
  have hstep := step_eq_nextStep h.passes h.stage_eq h.going.not_ended
  rw [h.planned] at hstep
  have hstage : ({ s with plan := some plan } : Session).stage = some stage := h.stage_eq
  have hnext := nextStep_of_some hstage h.going.not_ended ha
  rw [begun_eq h.status] at hnext
  exact hstep.trans hnext

theorem Ready.step_of_none (h : s.Ready program plan stage) (ha : plan[s.cursor]? = none) :
    (s.step program).session = { s with
      stage := some (stage.after (completeStep stage.toPlay))
      plan := some plan } := by
  have hstep := step_eq_nextStep h.passes h.stage_eq h.going.not_ended
  rw [h.planned] at hstep
  have hstage : ({ s with plan := some plan } : Session).stage = some stage := h.stage_eq
  exact hstep.trans (nextStep_of_none hstage ha)

/-- A session that is left running has the rest of its plan to go. -/
theorem Ready.next (h : s.Ready program plan stage) {s' : Session} {q : Play} {cursor : Nat}
    (hs : s' = { s with stage := some (stage.after q), cursor, plan := some plan })
    (hq : q.world.Going s.rules.stepLimit.toNat) (hrun : q.world.status = .running) :
    s'.Ready program plan (stage.after q) := by
  have hstage : s'.stage = some (stage.after q) := by rw [hs]
  have hpass := (refusal?_congr h.stage_eq hstage rfl [program]).trans h.passes
  subst hs
  exact ⟨rfl, hpass, rfl, hq, .inr hrun⟩

/-- A step through an action ends the walk, as the rest of the plan would, or leaves the rest of the
plan to go. -/
theorem Ready.step_cases (h : s.Ready program plan stage) {a : Action}
    (ha : plan[s.cursor]? = some a) :
    let q := stepped s.rules stage a
    let s' := (s.step program).session
    (∃ stage', s'.stage = some stage' ∧ stage'.world.status ≠ .running ∧
      Agrees (q.performAll s.rules (.ofSlot 0) (plan.drop (s.cursor + 1))).finish stage'.toPlay) ∨
    (s'.Ready program plan (stage.after q) ∧ s'.cursor = s.cursor + 1 ∧ s'.rules = s.rules ∧
      q.world.status = .running) := by
  intro q s'
  have hstep : s' = { s with
      stage := some (stage.after (if plan.length ≤ s.cursor + 1 then completeStep q else q))
      cursor := s.cursor + 1
      plan := some plan } := h.step_of_some ha
  have hcases : q.world.Going s.rules.stepLimit.toNat ∧ q.world.status = .running ∨
    q.world.ended = true ∧ q.world.status ≠ .running ∧ q.world.status ≠ .idle :=
    stepped_cases h.going a
  by_cases hend : plan.length ≤ s.cursor + 1
  · rw [if_pos hend] at hstep
    have hidle : q.world.status ≠ .idle := by
      rcases hcases with ⟨-, hrun⟩ | ⟨-, -, hidle⟩
      · simp [hrun]
      · exact hidle
    refine .inl ⟨_, by rw [hstep], completeStep_status q, ?_⟩
    rw [List.drop_eq_nil_of_le hend]
    exact (completeStep_agrees hidle).trans (agrees_after stage _)
  · rw [if_neg hend] at hstep
    rcases hcases with ⟨hgo, hrun⟩ | ⟨hover, hne, -⟩
    · exact .inr ⟨h.next hstep hgo hrun, by rw [hstep], by rw [hstep], hrun⟩
    · have hfinish : q.finish = q := by
        unfold finish
        rw [if_neg hne]
      refine .inl ⟨_, by rw [hstep], hne, ?_⟩
      rw [performAll_of_halted (halted_of_ended hover _), hfinish]
      exact agrees_after stage q

theorem stepWhile_of_ne (h : (s.step program).value.status ≠ .running) (n : Nat) :
    s.stepWhile program (n + 1) = [s.step program] := by
  unfold stepWhile
  rw [if_neg h]

theorem stepWhile_of_eq (h : (s.step program).value.status = .running) (n : Nat) :
    s.stepWhile program (n + 1) =
      s.step program :: (s.step program).session.stepWhile program n := by
  rw [stepWhile, if_pos h]

/-- Once a step leaves the status other than "running", allowing more steps changes nothing. -/
theorem stepWhile_of_getLast? {reply : Reply RunResult} {m : Nat}
    (hl : (s.stepWhile program n).getLast? = some reply) (hr : reply.value.status ≠ .running)
    (hm : (s.stepWhile program n).length ≤ m) :
    s.stepWhile program m = s.stepWhile program n := by
  induction n generalizing s m with
  | zero => cases hl
  | succ n ih =>
    by_cases hrun : (s.step program).value.status = .running
    · rw [stepWhile_of_eq hrun] at hl hm ⊢
      obtain ⟨m, rfl⟩ := Nat.exists_eq_succ_of_ne_zero (Nat.ne_zero_of_lt hm)
      have hlater : ((s.step program).session.stepWhile program n).getLast? = some reply := by
        rw [List.getLast?_cons] at hl
        cases hlast : ((s.step program).session.stepWhile program n).getLast? with
        | none =>
          rw [hlast] at hl
          cases hl
          exact absurd hrun hr
        | some last => rwa [hlast] at hl
      rw [stepWhile_of_eq hrun, ih hlater (Nat.le_of_succ_le_succ hm)]
    · rw [stepWhile_of_ne hrun] at hm ⊢
      obtain ⟨m, rfl⟩ := Nat.exists_eq_succ_of_ne_zero (Nat.ne_zero_of_lt hm)
      exact stepWhile_of_ne hrun m

/-- A reply that ends a walk, and the stage that it leaves. -/
structure EndsWalk (s : Session) (program : Program) (n : Nat) (reply : Reply RunResult)
    (stage : Stage) : Prop where
  last : (s.stepWhile program n).getLast? = some reply
  stage_eq : reply.session.stage = some stage
  value : reply.value.status = stage.world.status
  status : stage.world.status ≠ .running

theorem Ready.value_status (h : s.Ready program plan stage) {stage' : Stage}
    (hs : (s.step program).session.stage = some stage') :
    (s.step program).value.status = stage'.world.status := by
  rw [step_value_status h.passes]
  simp [Session.status, world?, hs]

theorem Ready.endsWalk (h : s.Ready program plan stage) {stage' : Stage}
    (hs : (s.step program).session.stage = some stage') (hst : stage'.world.status ≠ .running) :
    EndsWalk s program (n + 1) (s.step program) stage' where
  last := by
    have hne : (s.step program).value.status ≠ .running := by
      rw [h.value_status hs]
      exact hst
    rw [stepWhile_of_ne hne]
    rfl
  stage_eq := hs
  value := h.value_status hs
  status := hst

/-- Stepping on through a plan performs the rest of it, and completes the run. -/
theorem Ready.walk {rest : List Action} (h : s.Ready program plan stage)
    (hrest : plan.drop s.cursor = rest) (hn : rest.length ≤ n) : ∃ reply stage',
      EndsWalk s program (n + 1) reply stage' ∧
      Agrees ((stage.toPlay.setStatus .running).performAll s.rules (.ofSlot 0) rest).finish
        stage'.toPlay := by
  -- The first step marks the world as running and unrolls the program, later ones find both done.
  -- `Ready` covers the two, so that one induction on the rest of the plan does.
  induction rest generalizing s stage n with
  | nil =>
    have hnone : plan[s.cursor]? = none := by simpa using hrest
    have hs : (s.step program).session.stage = _ := congrArg Session.stage (h.step_of_none hnone)
    refine ⟨_, _, h.endsWalk hs (completeStep_status _), ?_⟩
    exact (completeStep_setStatus h.status).trans (agrees_after stage _)
  | cons a rest ih =>
    have hsome : plan[s.cursor]? = some a := by
      rw [← List.head?_drop, hrest]
      rfl
    have hlater : plan.drop (s.cursor + 1) = rest := by
      rw [← List.tail_drop, hrest]
      rfl
    rcases h.step_cases hsome with ⟨stage', hs, hne, hagrees⟩ | ⟨hnext, hcursor, hrules, hrun⟩
    · rw [hlater] at hagrees
      exact ⟨_, stage', h.endsWalk hs hne, hagrees⟩
    · obtain ⟨m, rfl⟩ := Nat.exists_eq_succ_of_ne_zero (Nat.ne_zero_of_lt hn)
      obtain ⟨reply, stage', hlast, hagrees⟩ :=
        ih hnext (by rw [hcursor, hlater]) (Nat.le_of_succ_le_succ hn)
      rw [hrules] at hagrees
      have hvalue : (s.step program).value.status = .running :=
        (h.value_status hnext.stage_eq).trans hrun
      have hlast' : (s.stepWhile program (m + 1 + 1)).getLast? = some reply := by
        rw [stepWhile_of_eq hvalue, List.getLast?_cons, hlast.last]
        rfl
      refine ⟨reply, stage', ⟨hlast', hlast.stage_eq, hlast.value, hlast.status⟩, ?_⟩
      have hsame : Agrees (stepped s.rules stage a)
          ((stage.after (stepped s.rules stage a)).toPlay.setStatus .running) :=
        ⟨rfl, rfl, rfl, hrun.symm, rfl⟩
      exact (hsame.performAll rest).finish.trans hagrees

end Walk

section Run

variable {s : Session} {board : Board} {program : Program}

theorem IsFresh.coherent (h : s.IsFresh board) : s.Coherent := by
  intro stage hs
  cases h.stage.symm.trans hs
  exact (World.ofBoard_going board _).coherent

/-- A fresh session may step through a program that is not empty and within the block limit. -/
theorem IsFresh.ready (h : s.IsFresh board) (hsome : program ≠ [])
    (hlimit : (program.count : Int) ≤ board.blockLimit) :
    s.Ready program ((Block.flatAll program).take s.rules.stepLimit.toNat) (.ofBoard board) where
  stage_eq := h.stage
  passes := by
    have hle : ¬ board.blockLimit < (program.count : Int) := Int.not_lt.mpr hlimit
    simp [refusal?, h.stage, hsome, overLimit?, Stage.ofBoard, hle]
  planned := by
    unfold planned
    rw [h.plan]
    exact Program.unroll_actions _ _
  going := World.ofBoard_going board _
  status := .inl rfl

/-- What a run of a fresh session comes to if it is not cut short. -/
theorem IsFresh.run (h : s.IsFresh board) (hsome : program ≠ [])
    (hlimit : (program.count : Int) ≤ board.blockLimit) (hstatic : Block.areStatic program = true)
    (hcut : (s.run program []).value.status ≠ .runawayLoop) :
    ∃ stage, (s.run program []).session.stage = some stage ∧
      (s.run program []).value.status = stage.world.status ∧
      Agrees (((Stage.ofBoard board).toPlay.setStatus .running).performAll s.rules (.ofSlot 0)
        ((Block.flatAll program).take s.rules.stepLimit.toNat)).finish stage.toPlay := by
  have hpass : s.refusal? [program, []] = none := by
    rw [refusal?_pair_eq_none h.stage]
    have hzero : Program.count [] = 0 := rfl
    refine ⟨fun hnone => hsome hnone.1, hlimit, ?_⟩
    exact Int.le_trans (by omega) hlimit
  have hlate : ¬ s.RefusesLate program [] := fun ⟨_, _, _, hnone, _⟩ => hsome hnone
  obtain ⟨told, q, hends, hstage, hvalue⟩ :=
    ends_of_run h.stage (run_not_refused h.coherent hpass hlate)
  rw [hvalue] at hcut
  let p : Play := { (Stage.ofBoard board).toPlay with notices := told }
  have hgoing : p.world.Going s.rules.stepLimit.toNat := World.ofBoard_going board _
  have hdone : Agrees (p.start.performAll s.rules (.ofSlot 0)
      ((Block.flatAll program).take s.rules.stepLimit.toNat)).finish q :=
    hends.performs hgoing hstatic hcut
  have hstart : Agrees ((Stage.ofBoard board).toPlay.setStatus .running) p.start :=
    ⟨rfl, rfl, rfl, rfl, rfl⟩
  refine ⟨_, hstage, by rw [hvalue]; rfl, ?_⟩
  exact (hstart.performAll _).finish.trans (hdone.trans (agrees_after _ q))

/-- Stepping through a program of actions and plain repeats from a fresh session until the status is
no longer "running" comes to an end, and ends as a run of the program does unless that passes the
step limit: with the same status, grid, bunnies and events. -/
theorem stepThrough_agrees_with_run (h : s.IsFresh board) (hsome : program ≠ [])
    (hlimit : (program.count : Int) ≤ board.blockLimit) (hstatic : Block.areStatic program = true)
    (hcut : (s.run program []).value.status ≠ .runawayLoop) :
    ∃ reply stage stage', (s.stepThrough program).getLast? = some reply ∧
      reply.value.status ≠ .running ∧
      (∀ n, (s.stepThrough program).length ≤ n →
        s.stepWhile program n = s.stepThrough program) ∧
      (s.run program []).session.stage = some stage ∧ reply.session.stage = some stage' ∧
      reply.value.status = (s.run program []).value.status ∧
      stage'.world.status = stage.world.status ∧ stage'.world.grid = stage.world.grid ∧
      stage'.world.bunnies = stage.world.bunnies ∧ stage'.world.ended = stage.world.ended ∧
      stage'.events = stage.events := by
  obtain ⟨stage, hstage, hvalue, hrun⟩ := h.run hsome hlimit hstatic hcut
  have hready := h.ready hsome hlimit
  have hplan : (program.unroll (some s.rules.stepLimit)).actions =
      (Block.flatAll program).take s.rules.stepLimit.toNat := Program.unroll_actions _ _
  obtain ⟨reply, stage', hwalk, hsteps⟩ :=
    hready.walk (by rw [h.cursor, List.drop_zero]) (Nat.le_refl _)
  have hsame : Agrees stage.toPlay stage'.toPlay := hrun.symm.trans hsteps
  have hlast : (s.stepThrough program).getLast? = some reply := by
    unfold stepThrough
    rw [hplan]
    exact hwalk.last
  have hstops : reply.value.status ≠ .running := by
    rw [hwalk.value]
    exact hwalk.status
  refine ⟨reply, stage, stage', hlast, hstops, fun n hn => stepWhile_of_getLast? hlast hstops hn,
    hstage, hwalk.stage_eq, ?_, hsame.status, hsame.grid, hsame.bunnies, hsame.ended,
    hsame.events⟩
  rw [hwalk.value, hvalue]
  exact hsame.status

/-- A bunny that jumps off the map in a repeat stops both. -/
theorem stepThrough_agrees_with_run_least :
    let s := (loadBoard {} .least).session
    let program : Program := [.repeatLoop (.plain 3) [.act (.jump .ahead (.plain 1))]]
    ∃ reply, (s.stepThrough program).getLast? = some reply ∧
      reply.value.status = .boundaryExit := by
  intro s program
  have hstatus : (s.run program []).value.status = .boundaryExit := by decide
  obtain ⟨reply, -, -, hlast, -, -, -, -, hsame, -⟩ :=
    stepThrough_agrees_with_run (loadBoard_isFresh {} .least) (List.cons_ne_nil _ [])
      (by decide) (by decide) (by rw [hstatus]; decide : (s.run program []).value.status ≠ _)
  exact ⟨reply, hlast, hsame.trans hstatus⟩

end Run

end Session
end BunnyGrid
