import BunnyGrid.Proofs.Play.Matching
import BunnyGrid.Proofs.World.Board

/-! A repetition does what its body does when it is written out, but for the counts of its
rounds. -/
namespace BunnyGrid.Play

variable {rules : Rules} {who : Actor} {n k : Nat} {body bs : List Block} {p p' q : Play}

theorem Behind.refl (p : Play) (ns : List Notice) : Behind 0 (p.noteAll ns) p :=
  ⟨⟨rfl, rfl, rfl, rfl, rfl⟩, rfl, fun _ => rfl⟩

/-- A round that begins takes a count that the written out body does not take. -/
theorem Behind.of_enter_true (h : Behind k p p') (he : p.enter rules who = (q, true)) :
    Behind (k + 1) q p' := by
  have hsteps := h.steps
  rw [eq_of_enter_true he]
  refine ⟨⟨h.grid, h.bunnies, h.ended, h.status, h.events⟩, ?_, h.message⟩
  dsimp only
  omega

/-- Where no round begins any more the written out bodies are skipped too. -/
theorem Behind.of_enter_false (h : Behind k p p') (he : p.enter rules who = (q, false))
    (hq : ¬ q.world.IsCut) (bs : List Block) : Behind k q (p'.execAll rules who bs) := by
  rcases cases_of_enter_false he with ⟨hh, rfl⟩ | ⟨hcut, -⟩
  · rw [execAll_of_halted ((h.toAgrees.halted who).trans hh)]
    exact h
  · exact absurd hcut hq

/-- Blocks that are not cut short do the same from a play that is behind. -/
theorem Behind.execAll (h : Behind k p p') (hr : Runs rules who (.blocks bs) p q)
    (hq : ¬ q.world.IsCut) : Behind k q (p'.execAll rules who bs) := by
  obtain ⟨q', hr', hend⟩ := hr.simulate (behind_simulates rules who k) hq h
  rw [← runs_blocks_iff.mp hr']
  exact hend

/-- Rounds that are not cut short do what as many bodies do, and each that begins takes one count
more. -/
theorem Runs.unroll (h : Runs rules who (.rounds n body) p q) (hq : ¬ q.world.IsCut)
    (hp : Behind k p p') :
    ∃ l ≤ n, Behind (k + l) q (p'.execAll rules who (List.replicate n body).flatten) := by
  -- The written out side falls one more count behind in each round, hence `k` is not fixed.
  induction n generalizing p p' k with
  | zero =>
    cases h with
    | roundsEnd =>
      rw [List.replicate_zero, List.flatten_nil, execAll]
      exact ⟨0, Nat.le_refl 0, hp⟩
  | succ n ih =>
    cases h with
    | roundsStop he => exact ⟨0, Nat.zero_le _, hp.of_enter_false he hq _⟩
    | roundsNext he hb hr =>
      have hbody := (hp.of_enter_true he).execAll hb (mt hr.changes.isCut hq)
      obtain ⟨l, hl, hend⟩ := ih hr hbody
      rw [← execAll_append, ← List.flatten_cons, ← List.replicate_succ, Nat.add_assoc,
        Nat.add_comm 1] at hend
      exact ⟨l + 1, Nat.succ_le_succ hl, hend⟩

theorem Runs.unroll_repeat {times : Amount}
    (h : Runs rules who (.block (.repeatLoop times body)) p q) (hq : ¬ q.world.IsCut) :
    let n := (times.eval (p.self? who)).toNat
    ∃ k ≤ n, Behind k q (p.execAll rules who (List.replicate n body).flatten) := by
  intro n
  cases h with
  | halt hh =>
    rw [execAll_of_halted hh]
    exact ⟨0, Nat.zero_le _, .refl p []⟩
  | repeatLoop _ hr =>
    obtain ⟨k, hk, hend⟩ := hr.unroll hq (.refl p _)
    rw [Nat.zero_add] at hend
    exact ⟨k, hk, hend⟩

/-- A repetition that the step limit does not cut short leaves the world and the log that its body
leaves, written out as many times as the count says at first. Only the counter is ahead, by one for
each round that began. -/
theorem repeat_eq_unrolled (rules : Rules) (who : Actor) (p : Play) (times : Amount)
    (body : List Block) (hcut : ¬ (p.exec rules who (.repeatLoop times body)).world.IsCut) :
    let n := (times.eval (p.self? who)).toNat
    let q := p.exec rules who (.repeatLoop times body)
    let r := p.execAll rules who (List.replicate n body).flatten
    ∃ k ≤ n, q.world = { r.world with steps := r.world.steps + k } ∧ q.events = r.events := by
  intro n q r
  have hruns : Runs rules who (.block (.repeatLoop times body)) p q := exec_runs _ p
  obtain ⟨k, hk, hend⟩ : ∃ k ≤ n, Behind k q r := hruns.unroll_repeat hcut
  refine ⟨k, hk, ?_, hend.events.symm⟩
  rw [hend.world_eq (.inl trivial), ← hend.steps]

/-- The count is read once: it stays two while the body sets its variable to nine. -/
theorem repeat_eq_unrolled_twice :
    let who : Actor := .ofSlot 0
    let body : List Block := [.act (.setVar "n" (.literal (.int 9))), .act (.turn .right)]
    let p := Play.exec {} who (.act (.setVar "n" (.literal (.int 2)))) { world := .ofBoard .least }
    let q := p.exec {} who (.repeatLoop (.expr (.var "n")) body)
    let r := p.execAll {} who (body ++ body)
    ¬ q.world.IsCut ∧
      ∃ k ≤ 2, q.world = { r.world with steps := r.world.steps + k } ∧ q.events = r.events := by
  intro who body p q r
  have hgoes : q.world.ended = false := by decide +kernel
  have hcut : ¬ q.world.IsCut := fun h => Bool.false_ne_true (hgoes.symm.trans h.1)
  have hcount : (Amount.eval (p.self? who) (.expr (.var "n"))).toNat = 2 := rfl
  have hbody : (List.replicate 2 body).flatten = body ++ body := rfl
  have hsame := repeat_eq_unrolled {} who p (.expr (.var "n")) body hcut
  -- A play whose value is known would be run to its end by the steps that follow.
  clear_value p
  dsimp only at hsame
  rw [hcount, hbody] at hsame
  exact ⟨hcut, hsame⟩

end BunnyGrid.Play
