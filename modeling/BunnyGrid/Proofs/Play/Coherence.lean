import BunnyGrid.Proofs.Play.Step

/-! The status of a world agrees with its flags, its bunnies and its counter, before and after every
step. -/
namespace BunnyGrid

namespace World

/-- The status says truly whether the world is over and why. Here `limit` is the number of counts
that the step limit allows. -/
structure Coherent (limit : Nat) (w : World) : Prop where
  ended_iff : w.ended = true ↔ w.status = .boundaryExit ∨ w.status = .runawayLoop
  exit_iff : w.status = .boundaryExit ↔ w.anyActive = false
  runaway_iff : w.status = .runawayLoop ↔ w.steps = limit + 1
  steps_le : w.status ≠ .runawayLoop → w.steps ≤ limit
  not_refusal : w.status.isRefusal = false

/-- What coherence asks of a world that goes on. -/
structure Going (limit : Nat) (w : World) : Prop where
  not_ended : w.ended = false
  not_exit : w.status ≠ .boundaryExit
  not_runaway : w.status ≠ .runawayLoop
  not_refusal : w.status.isRefusal = false
  active : w.anyActive = true
  steps_le : w.steps ≤ limit

variable {limit : Nat} {w w' : World}

theorem Going.coherent (h : w.Going limit) : w.Coherent limit where
  ended_iff := by simp [h.not_ended, h.not_exit, h.not_runaway]
  exit_iff := by simp [h.not_exit, h.active]
  runaway_iff := by
    have := h.steps_le
    simp only [h.not_runaway, false_iff]
    omega
  steps_le := fun _ => h.steps_le
  not_refusal := h.not_refusal

theorem Coherent.going (h : w.Coherent limit) (he : w.ended = false) : w.Going limit := by
  have hs : ¬ (w.status = .boundaryExit ∨ w.status = .runawayLoop) := by
    rw [← h.ended_iff, he]
    decide
  obtain ⟨hexit, hrun⟩ := not_or.mp hs
  refine ⟨he, hexit, hrun, h.not_refusal, ?_, h.steps_le hrun⟩
  rw [h.exit_iff, Bool.not_eq_false] at hexit
  exact hexit

theorem Going.congr (h : w.Going limit) (he : w'.ended = w.ended) (hs : w'.status = w.status)
    (ha : w'.anyActive = w.anyActive) (hn : w'.steps = w.steps) : w'.Going limit where
  not_ended := he ▸ h.not_ended
  not_exit := hs ▸ h.not_exit
  not_runaway := hs ▸ h.not_runaway
  not_refusal := hs ▸ h.not_refusal
  active := ha ▸ h.active
  steps_le := hn ▸ h.steps_le

/-- A world that goes on may be marked as running or completed. -/
theorem Going.mark (h : w.Going limit) {status : Status} (message : String)
    (hs : status = .running ∨ status = .completed) :
    World.Going limit { w with status, message } := by
  rcases hs with rfl | rfl
  all_goals exact ⟨h.not_ended, by simp, by simp, rfl, h.active, h.steps_le⟩

theorem Coherent.congr (h : w.Coherent limit)
    (he : w'.ended = w.ended) (hs : w'.status = w.status) (ha : w'.anyActive = w.anyActive)
    (hn : w'.steps = w.steps) : w'.Coherent limit := by
  obtain ⟨h1, h2, h3, h4, h5⟩ := h
  rw [← he, ← hs] at h1
  rw [← ha, ← hs] at h2
  rw [← hn, ← hs] at h3
  rw [← hn, ← hs] at h4
  rw [← hs] at h5
  exact ⟨h1, h2, h3, h4, h5⟩

theorem Coherent.steps_le_succ (h : w.Coherent limit) : w.steps ≤ limit + 1 := by
  by_cases hs : w.status = .runawayLoop
  · exact Nat.le_of_eq (h.runaway_iff.mp hs)
  · exact Nat.le_succ_of_le (h.steps_le hs)

theorem ofBoard_going (b : Board) (limit : Nat) : (World.ofBoard b).Going limit where
  not_ended := rfl
  not_exit := by simp [ofBoard]
  not_runaway := by simp [ofBoard]
  not_refusal := rfl
  active := by simp [anyActive, ofBoard, Board.starts, Bunny.ofStart]
  steps_le := Nat.zero_le _

end World

/-- A change of one bunny that leaves it where it is on or off the map. -/
theorem any_active_modify {f : Bunny → Bunny} (hf : ∀ b, (f b).active = b.active)
    (bs : List Bunny) (i : Nat) : (bs.modify i f).any (·.active) = bs.any (·.active) := by
  induction bs generalizing i with
  | nil => simp
  | cons b bs ih => cases i <;> simp [hf, ih]

namespace Play
open World

variable {rules : Rules} {who : Actor} {p q : Play} {limit : Nat}

theorem Change.coherent (h : Change rules who p q) (hp : p.world.Going rules.stepLimit.toNat) :
    q.world.Coherent rules.stepLimit.toNat := by
  cases h with
  | tell => exact hp.coherent
  | turn _ t =>
    exact (hp.congr (by simp) (by simp) (by simp [anyActive, any_active_modify]) (by simp)).coherent
  | store _ f =>
    exact (hp.congr (by simp) (by simp) (by simp [anyActive, any_active_modify]) (by simp)).coherent
  | skip => exact (hp.congr (by simp) (by simp) (by simp [anyActive]) (by simp)).coherent
  | land _ x y _ =>
    obtain ⟨told, hw⟩ := land_world rules p who x y
    refine (hp.congr ?_ ?_ ?_ ?_).coherent <;> rw [hw]
    simp [anyActive, any_active_modify]
  | leave =>
    obtain ⟨told, hw⟩ := leave_world p who
    rw [hw]
    dsimp only
    have hsteps := hp.steps_le
    split
    case isTrue ha =>
      exact World.Going.coherent
        ⟨hp.not_ended, hp.not_exit, hp.not_runaway, hp.not_refusal, ha, hsteps⟩
    case isFalse ha =>
      refine ⟨by simp, ?_, ?_, fun _ => hsteps, rfl⟩
      · simpa [anyActive] using ha
      · simp only [reduceCtorEq, false_iff]
        omega
  | tick =>
    have hsteps := hp.steps_le
    by_cases hl : (p.world.steps : Int) + 1 ≤ rules.stepLimit
    · rw [tick_of_le rules p hl]
      exact World.Going.coherent ⟨hp.not_ended, hp.not_exit, hp.not_runaway, hp.not_refusal,
        hp.active, by simp only; omega⟩
    · obtain ⟨-, -, told, hw⟩ := tick_of_lt rules p (Int.not_le.mp hl)
      rw [hw]
      refine ⟨by simp, ?_, ?_, by simp, rfl⟩
      · have ha := hp.active
        simp only [anyActive] at ha ⊢
        simp [ha]
      · simp only [true_iff]
        omega

theorem Step.coherent (h : Step rules p q) (hp : p.world.Coherent rules.stepLimit.toNat) :
    q.world.Coherent rules.stepLimit.toNat := by
  cases h with
  | change h =>
    cases he : p.world.ended with
    | true => rwa [(h.frozen he).1]
    | false => exact h.coherent (hp.going he)
  | start he message => exact ((hp.going he).mark message (.inl rfl)).coherent
  | finish hs message =>
    have he : p.world.ended = false := by
      rw [← Bool.not_eq_true, hp.ended_iff]
      rcases hs with hs | hs <;> simp [hs]
    exact ((hp.going he).mark message (.inr rfl)).coherent

theorem Steps.coherent (h : Steps rules p q) (hp : p.world.Coherent rules.stepLimit.toNat) :
    q.world.Coherent rules.stepLimit.toNat := by
  induction h with
  | refl => exact hp
  | tail _ h ih => exact h.coherent ih

theorem Course.status (h : Course rules p q) : q.world.status = p.world.status ∨
    q.world.status = .boundaryExit ∨ q.world.status = .runawayLoop := by
  induction h with
  | refl => exact .inl rfl
  | tail _ h ih =>
    obtain ⟨who, h⟩ := h
    rcases h.status with hs | hs
    · rwa [hs]
    · exact .inr hs

/-- A run that comes to its end in a coherent world has a terminal status. -/
theorem Ends.isTerminal {first second : Program} (h : Ends rules first second p q)
    (hp : p.world.Coherent rules.stepLimit.toNat) : q.world.status.isTerminal = true := by
  rcases h.course with ⟨he, rfl⟩ | ⟨_, r, hr, rfl⟩
  · rcases hp.ended_iff.mp he with hs | hs <;> rw [hs] <;> rfl
  · unfold finish
    split
    case isTrue => rfl
    case isFalse hs =>
      rcases hr.status with h | h | h
      · exact absurd h hs
      · rw [h]; rfl
      · rw [h]; rfl

end Play
end BunnyGrid
