import BunnyGrid.Proofs.Play.Budget
import BunnyGrid.Proofs.Session.Independence

/-! The counts of a run, known before it starts. -/
namespace BunnyGrid

/-- Whether there are bunnies and what they run has no branches. One that is alone ignores the
second program. -/
def Stage.IsStraight (stage : Stage) (first second : Program) : Prop :=
  stage.world.bunnies ≠ [] ∧ first.lacks Block.isBranch = true ∧
    (stage.world.bunnies.length = 1 ∨ second.lacks Block.isBranch = true)

/-- From a stage a run takes at most `k` counts, and on a `straight` way just so many if all bunnies
are still on the map and the limit is not passed. It does not pass a limit that they are within. -/
structure Reply.KeepsTo (stage : Stage) (limit : Int) (straight : Prop) (k : Nat)
    (r : Reply RunResult) : Prop where
  counter : ∃ last, r.session.stage = some last ∧ last.world.steps = r.value.steps
  le : r.value.steps ≤ stage.world.steps + k
  eq : straight → (∀ active ∈ r.value.active, active = true) → r.value.status ≠ .runawayLoop →
    r.value.steps = stage.world.steps + k
  within : (stage.world.steps + k : Nat) ≤ limit → r.value.status ≠ .runawayLoop

section Budget

variable {w : World} {first second : Program} {n k : Nat}

theorem World.budget?_of_hasNothing {p : Play} (h : p.HasNothing first second)
    (hk : p.world.budget? first second = some k) : k = 0 := by
  obtain ⟨rfl, hsecond⟩ := h
  unfold budget? at hk
  split at hk
  case isTrue =>
    cases hk
    rfl
  case isFalse hone =>
    cases hsecond.resolve_right hone
    cases hk
    rfl

/-- Without loops no bunny can take more counts than its program has blocks. -/
theorem World.budget?_le_count (hfirst : first.lacks Block.isLoop = true)
    (hsecond : w.bunnies.length = 1 ∨ second.lacks Block.isLoop = true) (hn : first.count ≤ n)
    (hn' : second.count ≤ n) (hw : w.bunnies ≠ []) :
    ∃ k, w.budget? first second = some k ∧ k ≤ n * w.bunnies.length := by
  obtain ⟨k, hk, hle⟩ := Block.costAll?_le_count first hfirst
  have hle : k ≤ n := Nat.le_trans hle hn
  have hpos : 0 < w.bunnies.length := List.length_pos_iff.mpr hw
  unfold budget? Program.cost?
  split
  case isTrue hone => exact ⟨k, hk, by rw [hone, Nat.mul_one]; exact hle⟩
  case isFalse hone =>
    obtain ⟨l, hl, hle'⟩ := Block.costAll?_le_count second (hsecond.resolve_left hone)
    have hle' : l ≤ n := Nat.le_trans hle' hn'
    have htwo : n * 2 ≤ n * w.bunnies.length := Nat.mul_le_mul_left n (by omega)
    exact ⟨k + l, by rw [hk, hl]; rfl, by omega⟩

end Budget

namespace Session
open Play

variable {s : Session} {stage : Stage} {first second : Program} {k : Nat}

/-- Whatever is refused takes no counts. -/
theorem continueWith_steps_of_hasNothing (hs : s.stage = some stage)
    (h : stage.toPlay.HasNothing first second) :
    (s.continueWith first second).value.steps = stage.world.steps := by
  rw [continueWith_of_stage hs]
  dsimp only
  rw [(run_of_hasNothing s.rules h).2.2]
  rfl

theorem continueWith_keepsTo (hs : s.stage = some stage) (hgoes : stage.world.ended = false)
    (hk : stage.world.budget? first second = some k) :
    (s.continueWith first second).KeepsTo stage s.rules.stepLimit (stage.IsStraight first second)
      k := by
  by_cases hnone : stage.toPlay.HasNothing first second
  · obtain ⟨hsame, hstatus⟩ := continueWith_of_hasNothing hs hnone
    have hsteps := continueWith_steps_of_hasNothing hs hnone
    cases World.budget?_of_hasNothing hnone hk
    refine ⟨⟨stage, ?_, hsteps.symm⟩, Nat.le_of_eq hsteps, fun _ _ _ => hsteps, fun _ => ?_⟩
    · rw [hsame]
      exact hs
    · rw [hstatus]
      decide
  · obtain ⟨told, q, hq, hlast, hr⟩ := continueWith_ends hs hnone
    refine ⟨⟨_, hlast, by rw [hr]; rfl⟩, ?_, ?_, fun hlimit => ?_⟩
    · rw [hr]
      exact hq.steps_le_budget hgoes hk
    · rintro ⟨hn, hfirst, hsecond⟩ hall hlimit
      rw [hr] at hall hlimit ⊢
      have hactive : ∀ b ∈ q.world.bunnies, b.active = true :=
        fun b hb => hall b.active (List.mem_map_of_mem hb)
      exact hq.steps_eq_budget hgoes hk hfirst hsecond hn hactive hlimit
    · rw [hr]
      exact hq.not_runaway hgoes hk hlimit

/-- A run without loops is within any step limit that has a count for every block that the map
admits to each bunny. -/
theorem run_not_runaway (hs : s.stage = some stage) (hfirst : first.lacks Block.isLoop = true)
    (hsecond : stage.board.bunnyCount = 1 ∨ second.lacks Block.isLoop = true)
    (hlimit : stage.board.blockLimit * stage.board.bunnyCount ≤ s.rules.stepLimit) :
    (s.run first second).value.status ≠ .runawayLoop := by
  unfold run
  cases hpass : s.refusal? [first, second] with
  | some r =>
    have hrefused := isRefusal_of_refusal? hpass
    intro h
    dsimp only at h
    rw [h] at hrefused
    cases hrefused
  | none =>
    obtain ⟨-, hn, hn'⟩ := (refusal?_pair_eq_none hs).mp hpass
    have hcount : stage.reset.world.bunnies.length = stage.board.bunnyCount :=
      reset_bunnies_length stage
    have hsome : stage.reset.world.bunnies ≠ [] := by
      rw [← List.length_pos_iff, hcount]
      rcases stage.board.bunnyCount_eq with h | h <;> omega
    obtain ⟨n, hlim⟩ : ∃ n : Nat, stage.board.blockLimit = n :=
      Int.eq_ofNat_of_zero_le (Int.le_trans (Int.natCast_nonneg _) hn)
    rw [hlim] at hn hn' hlimit
    rw [← hcount] at hsecond hlimit
    obtain ⟨k, hk, hle⟩ := World.budget?_le_count hfirst hsecond (Int.ofNat_le.mp hn)
      (Int.ofNat_le.mp hn') hsome
    have hkeeps := continueWith_keepsTo (reset_stage hs) rfl hk
    refine hkeeps.within (Int.le_trans (Int.ofNat_le.mpr ?_) hlimit)
    have hzero : stage.reset.world.steps = 0 := rfl
    rw [hzero, Nat.zero_add]
    exact hle

/-- Only `while` loops and repetitions of a computed count have no cost. In a world that is not over
a run keeps to the budget of its programs. A program without loops costs no more than it has blocks,
and on a map that admits only programs of a size that the step limit has a count for in each bunny,
a run without loops does not pass the limit. -/
theorem run_keeps_to_budget (hs : s.stage = some stage) (first second : Program) :
    first.cost?.isSome = first.lacks Block.isOpen ∧
    (∀ k, stage.world.ended = false → stage.world.budget? first second = some k →
      (s.continueWith first second).KeepsTo stage s.rules.stepLimit
        (stage.IsStraight first second) k) ∧
    (first.lacks Block.isLoop = true → ∃ k, first.cost? = some k ∧ k ≤ first.count) ∧
    (first.lacks Block.isLoop = true →
      stage.board.bunnyCount = 1 ∨ second.lacks Block.isLoop = true →
      stage.board.blockLimit * stage.board.bunnyCount ≤ s.rules.stepLimit →
      (s.run first second).value.status ≠ .runawayLoop) :=
  ⟨Block.isSome_costAll? first, fun _ hgoes hk => continueWith_keepsTo hs hgoes hk,
    Block.costAll?_le_count first, run_not_runaway hs⟩

/-- Two bunnies turn: one twice in a loop, one once. Of the loop the block and its rounds count. -/
theorem run_keeps_to_budget_pair :
    let s := after {} [.install .pair]
    let first : Program := [.repeatLoop (.plain 2) [.act (.turn .right)]]
    let second : Program := [.act (.turn .left)]
    World.budget? (.ofBoard .pair) first second = some 6 ∧
      (s.continueWith first second).value.steps = 6 ∧
      (s.run second second).value.status ≠ .runawayLoop := by
  intro s first second
  have hs : s.stage = some (.ofBoard .pair) := rfl
  obtain ⟨-, hkeeps, -, -⟩ := run_keeps_to_budget hs first second
  obtain ⟨-, -, -, hwithin⟩ := run_keeps_to_budget hs second second
  refine ⟨rfl, ?_, hwithin rfl (.inr rfl) (by decide)⟩
  exact (hkeeps 6 rfl rfl).eq ⟨by decide, rfl, .inr rfl⟩ (by decide) (by decide)

end Session
end BunnyGrid
