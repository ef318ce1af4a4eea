import BunnyGrid.Proofs.Session.Stepping

/-! When a step reports that the program is completed. -/
namespace BunnyGrid

namespace World

variable {w : World} {limit : Nat}

/-- A world that goes on has not started, or is running, or has completed what was run. -/
theorem Going.status_cases (h : w.Going limit) :
    (w.status = .idle ∨ w.status = .running) ∨ w.status = .completed := by
  have hexit := h.not_exit
  have hrunaway := h.not_runaway
  have hrefusal := h.not_refusal
  cases hs : w.status <;> simp_all [Status.isRefusal]

/-- The status of a world that is over says why. -/
theorem Coherent.not_completed_of_ended (h : w.Coherent limit) (ho : w.ended = true) :
    w.status ≠ .idle ∧ w.status ≠ .running ∧ w.status ≠ .completed := by
  rcases h.ended_iff.mp ho with hs | hs <;> simp [hs]

end World

namespace Session
open Play

/-- Whether a session has come to the end of the program that it steps through. -/
def isExhausted (s : Session) : Bool := s.plan.any (·.length ≤ s.cursor)

variable {s : Session} {stage : Stage} {program : Program} {plan : List Action} {p : Play}

theorem status_of_stage (hs : s.stage = some stage) : s.status = stage.world.status := by
  simp [status, world?, hs]

theorem isOver_of_stage (hs : s.stage = some stage) : s.isOver = stage.world.ended := by
  simp [isOver, world?, hs]

theorem completeStep_ended (p : Play) : (completeStep p).world.ended = p.world.ended := by
  unfold completeStep
  split <;> rfl

theorem completeStep_completed (h : p.world.status = .idle ∨ p.world.status = .running) :
    (completeStep p).world.status = .completed := by
  unfold completeStep
  rw [if_pos h]
  rfl

theorem completeStep_of_not (h : ¬ (p.world.status = .idle ∨ p.world.status = .running)) :
    completeStep p = p := by
  unfold completeStep
  rw [if_neg h]

/-- Past the end of the program the status is completed, if the world goes on. -/
theorem completeStep_of_going {limit : Nat} (h : p.world.Going limit) :
    (completeStep p).world.status = .completed := by
  rcases h.status_cases with hs | hs
  · exact completeStep_completed hs
  · rw [completeStep_of_not (by simp [hs]), hs]

/-- A step that begins goes on, running unless the world had completed a run before. -/
theorem begun_going {limit : Nat} (h : p.world.Going limit) : (begun p).world.Going limit ∧
    ((begun p).world.status = .completed ↔ p.world.status = .completed) := by
  unfold begun
  split
  case isTrue hs => exact ⟨h.mark _ (.inl rfl), by simp [setStatus, hs]⟩
  case isFalse => exact ⟨h, Iff.rfl⟩

/-- An action that does not end the world leaves the status as it is. -/
theorem exec_act_cases {rules : Rules} (h : p.world.Going rules.stepLimit.toNat) (a : Action) :
    let q := p.exec rules (.ofSlot 0) (.act a)
    q.world.Coherent rules.stepLimit.toNat ∧
      (q.world.ended = true ∨ q.world.Going rules.stepLimit.toNat ∧
        q.world.status = p.world.status) := by
  intro q
  have hcourse : Course rules p q := (exec_runs (.act a) p).changes.course
  have hq : q.world.Coherent rules.stepLimit.toNat := hcourse.steps.coherent h.coherent
  refine ⟨hq, ?_⟩
  cases hover : q.world.ended with
  | true => exact .inl rfl
  | false =>
    have hgoing := hq.going hover
    have hstatus := hcourse.status
    simp only [hgoing.not_exit, hgoing.not_runaway, or_false] at hstatus
    exact .inr ⟨hgoing, hstatus⟩

/-- At the end of a program a play that goes on is completed; before it the status is kept. -/
theorem concluded_status_iff {limit : Nat} {before : Status} (ends : Prop) [Decidable ends]
    (hc : p.world.Coherent limit)
    (hp : p.world.ended = true ∨ p.world.Going limit ∧ (p.world.status = .completed ↔
      before = .completed)) :
    let q := if ends then completeStep p else p
    q.world.status = .completed ↔ q.world.ended = false ∧ (ends ∨ before = .completed) := by
  intro q
  have hended : q.world.ended = p.world.ended := by
    unfold q
    split
    · exact completeStep_ended p
    · rfl
  rw [hended]
  rcases hp with hover | ⟨hgoing, hkept⟩
  · obtain ⟨hidle, hrun, hdone⟩ := hc.not_completed_of_ended hover
    have hsame : q = p := by
      unfold q
      rw [completeStep_of_not (not_or.mpr ⟨hidle, hrun⟩), ite_self]
    rw [hsame]
    exact iff_of_false hdone (by simp [hover])
  · have hgo : p.world.ended = false := hgoing.not_ended
    by_cases hend : ends
    · have hdone : (completeStep p).world.status = .completed := completeStep_of_going hgoing
      simp [q, hend, hdone, hgo]
    · simp [q, hend, hkept, hgo]

/-- Past the end of its program a session stays there. -/
theorem isExhausted_nextStep (hs : s.stage = some stage) (hplan : s.plan = some plan)
    (hend : plan.length ≤ s.cursor) : (s.nextStep plan).session.isExhausted = true := by
  have hnone : plan[s.cursor]? = none := List.getElem?_eq_none_iff.mpr hend
  rw [nextStep_of_none hs hnone, isExhausted, hplan]
  simpa using hend

section NextStep

variable (hs : s.stage = some stage) (hplan : s.plan = some plan)
  (hgo : stage.world.Going s.rules.stepLimit.toNat)

include hs hplan hgo

theorem nextStep_status_of_none (ha : plan[s.cursor]? = none) :
    let s' := (s.nextStep plan).session
    s'.status = .completed ↔
      s'.isOver = false ∧ (s'.isExhausted = true ∨ s.status = .completed) := by
  intro s'
  have hend : plan.length ≤ s.cursor := List.getElem?_eq_none_iff.mp ha
  have hstage : s'.stage = some (stage.after (completeStep stage.toPlay)) := by
    show (s.nextStep plan).session.stage = _
    rw [nextStep_of_none hs ha]
  have hdone : (completeStep stage.toPlay).world.status = .completed :=
    completeStep_of_going (p := stage.toPlay) hgo
  have hover : (completeStep stage.toPlay).world.ended = false :=
    (completeStep_ended _).trans hgo.not_ended
  have hexhausted : s'.isExhausted = true := isExhausted_nextStep hs hplan hend
  rw [status_of_stage hstage, isOver_of_stage hstage, hexhausted]
  simp [Stage.after, hdone, hover]

theorem nextStep_status_of_some {a : Action} (ha : plan[s.cursor]? = some a) :
    let s' := (s.nextStep plan).session
    s'.status = .completed ↔
      s'.isOver = false ∧ (s'.isExhausted = true ∨ s.status = .completed) := by
  intro s'
  let q := (begun stage.toPlay).exec s.rules (.ofSlot 0) (.act a)
  have hs' : s' = { s with
      stage := some (stage.after (if plan.length ≤ s.cursor + 1 then completeStep q else q))
      cursor := s.cursor + 1 } := nextStep_of_some hs hgo.not_ended ha
  have hstage : s'.stage =
      some (stage.after (if plan.length ≤ s.cursor + 1 then completeStep q else q)) := by rw [hs']
  have hexhausted : s'.isExhausted = decide (plan.length ≤ s.cursor + 1) := by
    rw [hs', isExhausted, hplan]
    rfl
  obtain ⟨hbegun, hbefore⟩ := begun_going (p := stage.toPlay) hgo
  obtain ⟨hcoherent, hq⟩ := exec_act_cases hbegun a
  have hkept : q.world.ended = true ∨ q.world.Going s.rules.stepLimit.toNat ∧
      (q.world.status = .completed ↔ s.status = .completed) := by
    rcases hq with hover | ⟨hgoing, hstatus⟩
    · exact .inl hover
    · rw [status_of_stage hs]
      exact .inr ⟨hgoing, by rw [hstatus]; exact hbefore⟩
  rw [status_of_stage hstage, isOver_of_stage hstage, hexhausted, decide_eq_true_eq]
  exact concluded_status_iff _ hcoherent hkept

/-- What a step of a plan leaves: it is completed if the world goes on and either the plan has come
to its end or the world was completed before. -/
theorem nextStep_status_iff :
    let s' := (s.nextStep plan).session
    s'.status = .completed ↔
      s'.isOver = false ∧ (s'.isExhausted = true ∨ s.status = .completed) := by
  cases ha : plan[s.cursor]? with
  | none => exact nextStep_status_of_none hs hplan hgo ha
  | some a => exact nextStep_status_of_some hs hplan hgo ha

end NextStep

/-- A step reports completion exactly if it is not refused, the world goes on after it, and either
the program has come to its end or the world was completed before the step. -/
theorem step_status_iff (hc : s.Coherent) (program : Program) :
    let reply := s.step program
    reply.value.status = .completed ↔ reply.value.status.isRefusal = false ∧
      reply.session.isOver = false ∧
        (reply.session.isExhausted = true ∨ s.status = .completed) := by
  intro reply
  cases hpass : s.refusal? [program] with
  | some r =>
    have hrefused : reply.value.status.isRefusal = true := by
      unfold reply
      rw [step_of_refusal hpass]
      exact isRefusal_of_refusal? hpass
    refine iff_of_false (fun h => ?_) (by simp [hrefused])
    rw [h] at hrefused
    cases hrefused
  | none =>
    obtain ⟨stage, hs⟩ := exists_stage_of_passes hpass
    have hleads := step_leads s program
    have hvalue : reply.value.status = reply.session.status := step_value_status hpass
    have hpassed : reply.value.status.isRefusal = false := by
      obtain ⟨stage', hs', -⟩ := hleads.exists_after hs
      rw [hvalue]
      exact (hleads.coherent hc).status_not_refusal hs'
    rw [hpassed, hvalue]
    simp only [true_and]
    let opened : Session := { s with plan := some (s.planned program) }
    have hstage : opened.stage = some stage := hs
    cases hover : stage.world.ended with
    | true =>
      have hkept : reply.session = opened := step_of_ended hpass hs hover
      have hnot := ((hc stage hs).not_completed_of_ended hover).2.2
      rw [hkept, status_of_stage hstage, isOver_of_stage hstage]
      exact iff_of_false hnot (by simp [hover])
    | false =>
      have hnext : reply.session = (opened.nextStep (s.planned program)).session :=
        step_eq_nextStep hpass hs hover
      have hstatus : opened.status = s.status := rfl
      rw [hnext, ← hstatus]
      exact nextStep_status_iff hstage rfl ((hc stage hs).going hover)

/-- Whether an operation loads a map, puts the world back or takes a step. -/
def Operation.isStepping : Operation → Bool
  | .load _ | .install _ | .reset | .resetWorld | .step _ => true
  | _ => false

/-- A session is completed only at the end of its program. -/
def EndsExhausted (s : Session) : Prop := s.status = .completed → s.isExhausted = true

theorem EndsExhausted.step (h : s.EndsExhausted) (hc : s.Coherent) (program : Program) :
    (s.step program).session.EndsExhausted := by
  intro hdone
  cases hpass : s.refusal? [program] with
  | some r =>
    rw [step_of_refusal hpass] at hdone ⊢
    exact h hdone
  | none =>
    rw [← step_value_status hpass] at hdone
    obtain ⟨-, -, hend | hbefore⟩ := (step_status_iff hc program).mp hdone
    · exact hend
    · obtain ⟨stage, hs⟩ := exists_stage_of_passes hpass
      have hgo : stage.world.ended = false := by
        rw [status_of_stage hs] at hbefore
        cases hover : stage.world.ended with
        | true => exact absurd hbefore ((hc stage hs).not_completed_of_ended hover).2.2
        | false => rfl
      obtain ⟨plan, hplan, hend⟩ := Option.any_eq_true _ _ |>.mp (h hbefore)
      have hsame : s.planned program = plan := by
        unfold planned
        rw [hplan]
        rfl
      have hnext := step_eq_nextStep hpass hs hgo
      rw [hsame] at hnext
      rw [hnext]
      exact isExhausted_nextStep (s := { s with plan := some plan }) hs rfl (of_decide_eq_true hend)

theorem endsExhausted_of_status (h : s.status ≠ .completed) : s.EndsExhausted :=
  fun hdone => absurd hdone h

theorem loadBoard_endsExhausted (s : Session) (board : Board) :
    (s.loadBoard board).session.EndsExhausted := endsExhausted_of_status nofun

theorem putBack_status {s' : Session} (h : s'.stage = s.stage.map .reset) :
    s'.status ≠ .completed := by
  unfold status world?
  rw [h]
  cases s.stage <;> simp [Stage.reset, Stage.ofBoard, World.ofBoard]

theorem EndsExhausted.apply (h : s.EndsExhausted) (hc : s.Coherent) {op : Operation}
    (hop : op.isStepping = true) : (s.apply op).EndsExhausted := by
  cases op with
  | load d =>
    simp only [Session.apply, load]
    cases Board.ofData d with
    | error e => exact h
    | ok board => exact loadBoard_endsExhausted s board
  | install board => exact loadBoard_endsExhausted s board
  | reset | resetWorld => exact endsExhausted_of_status (putBack_status (s := s) rfl)
  | step program => exact h.step hc program
  | _ => cases hop

theorem EndsExhausted.applyAll (h : s.EndsExhausted) (hc : s.Coherent) (ops : List Operation)
    (hops : ∀ op ∈ ops, op.isStepping = true) : (s.applyAll ops).EndsExhausted := by
  induction ops generalizing s with
  | nil => exact h
  | cons op ops ih =>
    have hop := h.apply hc (hops op (.head _))
    exact ih hop (apply_coherent s op hc) (fun op h => hops op (.tail _ h))

/-- After every history a step reports completion exactly if it is not refused, the world goes on
after it, and either the program has come to its end or the world was completed before the step.
The latter takes a run: with nothing but loads, steps and worlds put back since the status was last
another, a step reports completion only at the end of its program. -/
theorem step_reports_completion (rules : Rules) (history : List Operation) (program : Program) :
    let s := after rules history
    let reply := s.step program
    (reply.value.status = .completed ↔ reply.value.status.isRefusal = false ∧
      reply.session.isOver = false ∧
        (reply.session.isExhausted = true ∨ s.status = .completed)) ∧
    ∀ before later, history = before ++ later → (after rules before).status ≠ .completed →
      (∀ op ∈ later, op.isStepping = true) → reply.value.status = .completed →
        reply.session.isExhausted = true := by
  intro s reply
  have hc : s.Coherent := after_coherent rules history
  refine ⟨step_status_iff hc program, ?_⟩
  intro before later hsplit hbefore hlater hdone
  have hfirst : (after rules before).EndsExhausted := endsExhausted_of_status hbefore
  have hs : s = (after rules before).applyAll later := by
    simp only [s, hsplit, after, applyAll, List.foldl_append]
  have hall : s.EndsExhausted := by
    rw [hs]
    exact hfirst.applyAll (after_coherent rules before) later hlater
  have hpass : s.refusal? [program] = none := by
    by_contra h
    obtain ⟨r, hr⟩ := Option.ne_none_iff_exists'.mp h
    have hpassed := ((step_status_iff hc program).mp hdone).1
    rw [step_of_refusal hr, isRefusal_of_refusal? hr] at hpassed
    cases hpassed
  rw [step_value_status hpass] at hdone
  exact hall.step hc program hdone

/-- Two turns are stepped through on the least map: the second step reports completion. -/
theorem step_reports_completion_least :
    let right : Block := .act (.turn .right)
    let s := after {} [.install .least, .step [right, right]]
    (s.step [right, right]).value.status = .completed ∧
      (s.step [right, right]).session.isExhausted = true := by
  intro right s
  have hdone : (s.step [right, right]).value.status = .completed := by decide
  obtain ⟨-, hexhausted⟩ :=
    step_reports_completion {} [.install .least, .step [right, right]] [right, right]
  have hsteps : ∀ op ∈ [Operation.install .least, .step [right, right]], op.isStepping = true := by
    simp [Operation.isStepping]
  exact ⟨hdone, hexhausted [] _ rfl (by decide) hsteps hdone⟩

/-- After a run that was completed the first of two steps reports completion too. -/
theorem step_reports_completion_early :
    let right : Block := .act (.turn .right)
    let s := after {} [.install .least, .run [right] []]
    let reply := s.step [right, right]
    reply.value.status = .completed ∧ reply.session.cursor = 1 ∧
      reply.session.plan.map List.length = some 2 ∧ reply.session.isExhausted = false := by
  decide

end Session
end BunnyGrid
