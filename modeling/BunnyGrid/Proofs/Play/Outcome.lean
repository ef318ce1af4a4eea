import BunnyGrid.Proofs.Play.Order

/-! What bunnies can make of a world that is not over. -/
namespace BunnyGrid.Play

/-- A world that was not over goes on with its status, or all bunnies have left it, or a count has
passed the step limit. -/
inductive Outcome (rules : Rules) (p q : Play) : Prop
  | goesOn (hended : q.world.ended = false) (hstatus : q.world.status = p.world.status)
  | left (hended : q.world.ended = true) (hstatus : q.world.status = .boundaryExit)
      (hgone : q.world.anyActive = false)
  | cut (hended : q.world.ended = true) (hstatus : q.world.status = .runawayLoop)
      (hlate : rules.stepLimit < q.world.steps)

variable {rules : Rules} {who : Actor} {p q : Play}

theorem Change.outcome (h : Change rules who p q) (hp : p.world.ended = false) :
    Outcome rules p q := by
  cases h with
  | tell => exact .goesOn hp rfl
  | turn | store | skip => exact .goesOn (by simp [hp]) (by simp)
  | land h x y => exact .goesOn (by simp [hp]) (by simp)
  | leave h =>
    obtain ⟨told, hw⟩ := leave_world p who
    dsimp only at hw
    split at hw
    case isTrue => exact .goesOn (by rw [hw]; exact hp) (by rw [hw])
    case isFalse hgone =>
      refine .left (by rw [hw]) (by rw [hw]) ?_
      rw [hw]
      simpa [World.anyActive] using hgone
  | tick h =>
    by_cases hl : (p.world.steps : Int) + 1 ≤ rules.stepLimit
    · rw [tick_of_le rules p hl]
      exact .goesOn hp rfl
    · obtain ⟨-, -, told, hw⟩ := tick_of_lt rules p (Int.not_le.mp hl)
      refine .cut (by rw [hw]) (by rw [hw]) ?_
      rw [tick_steps]
      omega

/-- A chain of changes stops where the world is over. -/
theorem Course.outcome (h : Course rules p q) (hp : p.world.ended = false) :
    Outcome rules p q := by
  induction h with
  | refl => exact .goesOn hp rfl
  | @tail q r _ h ih =>
    obtain ⟨who, h⟩ := h
    cases ih with
    | goesOn hq hstatus =>
      cases h.outcome hq with
      | goesOn hended hr => exact .goesOn hended (hr.trans hstatus)
      | left hended hr hgone => exact .left hended hr hgone
      | cut hended hr hlate => exact .cut hended hr hlate
    | left hended hstatus hgone =>
      have hsame : r.world = q.world := (h.frozen hended).1
      rw [← hsame] at hended hstatus hgone
      exact .left hended hstatus hgone
    | cut hended hstatus hlate =>
      have hsame : r.world = q.world := (h.frozen hended).1
      rw [← hsame] at hended hstatus hlate
      exact .cut hended hstatus hlate

theorem takeTurns_course (rules : Rules) (turns : List (Actor × Block)) (p : Play) :
    Course rules p (p.takeTurns rules turns) := by
  induction turns generalizing p with
  | nil => exact .refl
  | cons turn rest ih => exact (takeTurn_changes rules p turn).course.trans (ih _)

/-- A bunny that has to stop does not go on, whatever the others do. -/
theorem Course.halted (h : Course rules p q) (hp : p.halted who = true) : q.halted who = true := by
  induction h with
  | refl => exact hp
  | tail _ h ih =>
    obtain ⟨other, h⟩ := h
    exact h.halted ih

end BunnyGrid.Play
