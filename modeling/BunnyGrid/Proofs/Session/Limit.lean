import BunnyGrid.Proofs.Play.Limit
import BunnyGrid.Proofs.Session.Refusal

/-! A higher step limit only makes runs longer. -/
namespace BunnyGrid

/-- What a run becomes under a higher step limit. One that the limit of `rules` does not cut short
stays the same, and the session differs only in its rules. One that is cut short was so by the first
count past that limit, and all that it logged is logged again first. -/
structure Reply.Prolonged (rules : Rules) (limit : Int) (r r' : Reply RunResult) : Prop where
  same : r.value.status ≠ .runawayLoop →
    r' = { r with session := { r.session with rules := rules.limited limit } }
  cut : r.value.status = .runawayLoop → (r.value.steps : Int) = rules.stepLimit + 1 ∧
    r.value.events <+: r'.value.events ∧ rules.stepLimit + 1 ≤ (r'.value.steps : Int)

namespace Session
open Play

variable {s : Session} {limit : Int} {first second : Program}

/-- A run that is cut short is so by the first count past the limit. -/
theorem steps_of_runaway (hc : s.Coherent) (hl : 0 ≤ s.rules.stepLimit)
    (h : (s.continueWith first second).value.status = .runawayLoop) :
    ((s.continueWith first second).value.steps : Int) = s.rules.stepLimit + 1 := by
  cases hs : s.stage with
  | none =>
    rw [continueWith_of_none hs] at h
    cases h
  | some stage =>
    by_cases hnone : stage.toPlay.HasNothing first second
    · rw [(continueWith_of_hasNothing hs hnone).2] at h
      cases h
    · obtain ⟨told, q, hq, -, hr⟩ := continueWith_ends hs hnone
      have hcoherent : q.world.Coherent s.rules.stepLimit.toNat := hq.steps.coherent (hc stage hs)
      rw [hr] at h ⊢
      have hsteps := hcoherent.runaway_iff.mp h
      change (q.world.steps : Int) = _
      omega

theorem continueWith_prolonged (hc : s.Coherent) (hl : 0 ≤ s.rules.stepLimit)
    (hle : s.rules.stepLimit ≤ limit) (first second : Program) :
    let s' : Session := { s with rules := s.rules.limited limit }
    (s.continueWith first second).Prolonged s.rules limit (s'.continueWith first second) := by
  intro s'
  have hsteps : (s.continueWith first second).value.status = .runawayLoop →
      ((s.continueWith first second).value.steps : Int) = s.rules.stepLimit + 1 :=
    steps_of_runaway hc hl
  cases hs : s.stage with
  | none =>
    have hs' : s'.stage = none := hs
    rw [continueWith_of_none hs, continueWith_of_none hs']
    exact ⟨fun _ => rfl, nofun⟩
  | some stage =>
    have hs' : s'.stage = some stage := hs
    have hran := continueWith_of_stage hs first second
    have hran' := continueWith_of_stage hs' first second
    rcases run_limited hle first second stage.toPlay with hsame | ⟨q, q', hcut, hr, hr'⟩
    · have heq : s'.continueWith first second =
          { s.continueWith first second with
            session := { (s.continueWith first second).session with rules := s'.rules } } := by
        rw [hran, hran']
        dsimp only
        rw [hsame]
      have hvalue : (s'.continueWith first second).value = (s.continueWith first second).value := by
        rw [heq]
      refine ⟨fun _ => heq, fun h => ⟨hsteps h, hvalue ▸ List.prefix_rfl, ?_⟩⟩
      exact Int.le_of_eq (hvalue ▸ (hsteps h).symm)
    · have hvalue : (s.continueWith first second).value = q.result := by rw [hran, hr]
      have hvalue' : (s'.continueWith first second).value = q'.result := by rw [hran', hr']
      rw [hvalue] at hsteps
      refine ⟨fun h => ?_, fun _ => ?_⟩
      · rw [hvalue] at h
        exact absurd hcut.cut.2 h
      · have hq : (q.world.steps : Int) = s.rules.stepLimit + 1 := hsteps hcut.cut.2
        rw [hvalue, hvalue']
        refine ⟨hq, hcut.log, ?_⟩
        rw [← hq]
        exact Int.ofNat_le.mpr hcut.steps

theorem run_prolonged (hc : s.Coherent) (hl : 0 ≤ s.rules.stepLimit)
    (hle : s.rules.stepLimit ≤ limit) (first second : Program) :
    let s' : Session := { s with rules := s.rules.limited limit }
    (s.run first second).Prolonged s.rules limit (s'.run first second) := by
  intro s'
  have hcheck : s'.refusal? [first, second] = s.refusal? [first, second] := rfl
  unfold run
  rw [hcheck]
  cases hpass : s.refusal? [first, second] with
  | some r =>
    have hrefused := isRefusal_of_refusal? hpass
    refine ⟨fun _ => rfl, fun h => ?_⟩
    rw [h] at hrefused
    cases hrefused
  | none => exact continueWith_prolonged ((reset_leads s).coherent hc) hl hle first second

/-- On every fresh map, a run that its step limit does not cut short is the same under any higher
limit: result, world, log and notices. One that is cut short ends at the first count past its limit,
and under the higher limit the same programs log the same events first and count at least as far. -/
theorem higher_limit_prolongs_run (rules : Rules) (limit : Int) (hl : 0 ≤ rules.stepLimit)
    (hle : rules.stepLimit ≤ limit) (board : Board) (first second : Program) :
    let s := after rules [.install board]
    let s' := after (rules.limited limit) [.install board]
    (s.run first second).Prolonged rules limit (s'.run first second) ∧
      (s.continueWith first second).Prolonged rules limit (s'.continueWith first second) := by
  intro s s'
  have hc : s.Coherent := after_coherent rules [.install board]
  exact ⟨run_prolonged hc hl hle first second, continueWith_prolonged hc hl hle first second⟩

/-- A bunny that turns for ever turns once before a limit of three cuts it short, and twice before a
limit of five. -/
theorem higher_limit_prolongs_run_spin :
    let reply := (after { stepLimit := 3 } [.install .least]).run .spin []
    let reply' := (after { stepLimit := 5 } [.install .least]).run .spin []
    (0 : Int) ≤ 3 ∧ (3 : Int) ≤ 5 ∧ (reply.value.steps : Int) = 3 + 1 ∧
      reply.value.events <+: reply'.value.events ∧ reply.value.events.length = 1 ∧
      reply'.value.events.length = 2 := by
  intro reply reply'
  have h := higher_limit_prolongs_run { stepLimit := 3 } 5 (by decide) (by decide) .least .spin []
  obtain ⟨hsteps, hlog, -⟩ := h.1.cut rfl
  exact ⟨by decide, by decide, hsteps, hlog, by decide, by decide⟩

end Session
end BunnyGrid
