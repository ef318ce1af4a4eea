import BunnyGrid.Proofs.Play.Matching
import BunnyGrid.Proofs.Play.Outcome
import BunnyGrid.Proofs.Session.Termination

/-! A program that is run in two parts, the second from where the first one left the world. -/
namespace BunnyGrid

namespace Play

variable {rules : Rules} {who : Actor} {first second : Program} {p p' : Play}

section Finish

/-- A finish tells the score, whatever was told before. -/
theorem Matches.finish_world_eq (h : Matches Eq False p p')
    (hover : p.world.status = .running ∨ p.world.ended = true) :
    p'.finish.world = p.finish.world := by
  by_cases hs : p.world.status = .running
  · have htold : Matches Eq True p.finish p'.finish := by
      refine ⟨h.toAgrees.finish, ?_, fun _ => ?_⟩
      · rw [finish_steps, finish_steps, h.steps]
      · unfold finish
        rw [if_pos hs, if_pos (h.status.trans hs)]
        dsimp only [setMessage, setStatus, World.totalScore]
        rw [h.bunnies]
    rw [htold.world_eq (.inl trivial), ← htold.steps]
  · rw [finish_of_not_running hs, finish_of_not_running (by rw [h.status]; exact hs)]
    rw [h.world_eq (.inr (hover.resolve_left hs)), ← h.steps]

/-- From a world that was finished a new start goes on as if there had been no finish. -/
theorem start_matches (hs : p.world.status = .running) (hp : p.world.ended = false)
    (hw : p'.world = p.finish.world) (he : p'.events = p.finish.events) :
    Matches Eq False p p'.start := by
  have hworld : p'.start.world = { p.world with status := .running, message := "Running..." } := by
    show { p'.world with status := .running, message := "Running..." } = _
    rw [hw]
    unfold finish
    rw [if_pos hs]
    rfl
  have hevents : p'.start.events = p.events := he.trans (finish_events p)
  refine ⟨⟨by rw [hworld], by rw [hworld], by rw [hworld], by rw [hworld, hs], hevents⟩,
    by rw [hworld], fun hover => ?_⟩
  rw [hp] at hover
  simp at hover

theorem runs_on_after_finish (hs : p.world.status = .running) (hp : p.world.ended = false)
    (hw : p'.world = p.finish.world) (he : p'.events = p.finish.events) (bs : List Block) :
    let q := (p.execAll rules who bs).finish
    let q' := (p'.start.execAll rules who bs).finish
    q'.world = q.world ∧ q'.events = q.events := by
  have hend : Matches Eq False (p.execAll rules who bs) (p'.start.execAll rules who bs) := by
    rw [execAll_eq_takeTurns, execAll_eq_takeTurns]
    exact takeTurns_related (fun who => Matches.isBisimulation rules who False)
      (start_matches hs hp hw he) _
  have hcourse : Course rules p (p.execAll rules who bs) := (execAll_runs bs p).changes.course
  refine ⟨hend.finish_world_eq ?_, hend.toAgrees.finish.events⟩
  cases hcourse.outcome hp with
  | goesOn _ hstatus => exact .inl (hstatus.trans hs)
  | left hended | cut hended => exact .inr hended

end Finish

/-- A run of one program, which every map has for its first bunny. -/
def runAlone (rules : Rules) (program : Program) (p : Play) : Play :=
  if p.world.ended then p else p.runToEnd rules program []

section Alone

theorem runAlone_of_ended (hp : p.world.ended = true) : p.runAlone rules first = p := by
  unfold runAlone
  rw [if_pos hp]

theorem runAlone_of_not_ended (hp : p.world.ended = false) :
    p.runAlone rules first = (p.start.execAll rules (.ofSlot 0) first).finish := by
  have hturns : p.schedule first [] = first.map (.ofSlot 0, ·) := by
    unfold schedule
    rw [mergedTurns_nil_right, ite_self]
  unfold runAlone
  rw [hp, runToEnd_eq_takeTurns, hturns, execAll_eq_takeTurns]
  rfl

theorem run_nil (rules : Rules) (hfirst : first ≠ []) (p : Play) :
    let q := p.runAlone rules first
    p.run rules first [] = (q.note (.runFinished q.world.status q.world.steps), q.result) := by
  have hempty : first.isEmpty = false := by simpa using hfirst
  simp [run, hempty, runAlone, Play.result]

/-- A second program goes on as it would have done without the end of the first one. -/
theorem runAlone_append (hw : p'.world = (p.runAlone rules first).world)
    (he : p'.events = (p.runAlone rules first).events) (second : Program) :
    (p'.runAlone rules second).world = (p.runAlone rules (first ++ second)).world ∧
      (p'.runAlone rules second).events = (p.runAlone rules (first ++ second)).events := by
  cases hp : p.world.ended with
  | true =>
    rw [runAlone_of_ended hp] at hw he ⊢
    rw [runAlone_of_ended (by rw [hw, hp])]
    exact ⟨hw, he⟩
  | false =>
    let r := p.start.execAll rules (.ofSlot 0) first
    have hcourse : Course rules p.start r := (execAll_runs first p.start).changes.course
    have hpart : p.runAlone rules first = r.finish := runAlone_of_not_ended hp
    have hwhole : p.runAlone rules (first ++ second) =
        (r.execAll rules (.ofSlot 0) second).finish := by
      rw [runAlone_of_not_ended hp, execAll_append]
    rw [hpart] at hw he
    rw [hwhole]
    -- A first part that left the world over leaves nothing to do, apart or in one run.
    have stopped (hended : r.world.ended = true) :
        (p'.runAlone rules second).world = (r.execAll rules (.ofSlot 0) second).finish.world ∧
          (p'.runAlone rules second).events =
            (r.execAll rules (.ofSlot 0) second).finish.events := by
      rw [runAlone_of_ended (by rw [hw, finish_ended, hended]),
        execAll_of_halted (halted_of_ended hended _)]
      exact ⟨hw, he⟩
    cases hcourse.outcome hp with
    | goesOn hended hstatus =>
      rw [runAlone_of_not_ended (by rw [hw, finish_ended, hended])]
      exact runs_on_after_finish hstatus hended hw he second
    | left hended | cut hended => exact stopped hended

end Alone

end Play

namespace Session
open Play

variable {s : Session} {stage : Stage} {first second : Program}

/-- Without blocks there is nothing to run. -/
theorem continueWith_nil (s : Session) : (s.continueWith [] []).session = s := by
  cases hs : s.stage with
  | none => rw [continueWith_of_none hs]
  | some stage => exact (continueWith_of_hasNothing hs ⟨rfl, .inl rfl⟩).1

theorem continueWith_alone (hs : s.stage = some stage) (hfirst : first ≠ []) :
    let q := stage.toPlay.runAlone s.rules first
    (s.continueWith first []).session = { s with stage := some (stage.after q) } ∧
      (s.continueWith first []).value = q.result := by
  rw [continueWith_of_stage hs]
  dsimp only
  rw [run_nil s.rules hfirst]
  exact ⟨rfl, rfl⟩

theorem continueWith_append (hs : s.stage = some stage) (hfirst : first ≠ [])
    (hsecond : second ≠ []) :
    let apart := (s.continueWith first []).session.continueWith second []
    let whole := s.continueWith (first ++ second) []
    apart.session = whole.session ∧ apart.value = whole.value := by
  intro apart whole
  let alone := stage.toPlay.runAlone s.rules first
  let part := stage.after alone
  let next := part.toPlay.runAlone s.rules second
  let both := stage.toPlay.runAlone s.rules (first ++ second)
  have hpart : (s.continueWith first []).session = { s with stage := some part } :=
    (continueWith_alone hs hfirst).1
  obtain ⟨hapart, hvalue⟩ : apart.session = { s with stage := some (part.after next) } ∧
      apart.value = next.result := by
    simp only [apart, hpart]
    exact continueWith_alone rfl hsecond
  obtain ⟨hwhole, hvalue'⟩ :=
    continueWith_alone hs (List.append_ne_nil_of_left_ne_nil hfirst second)
  have hworld : part.toPlay.world = alone.world := rfl
  have hevents : part.toPlay.events = alone.events := rfl
  obtain ⟨hw, he⟩ : next.world = both.world ∧ next.events = both.events :=
    runAlone_append hworld hevents second
  have hafter : part.after next = stage.after both := by
    unfold Stage.after
    rw [hw, he]
    rfl
  exact ⟨by rw [hapart, hwhole, hafter], by rw [hvalue, hvalue', Same.result ⟨hw, he⟩]⟩

/-- A run of one program and then, from where it left the world, of another is one run of both. It
leaves the same session, and its result is that of the second run if there was anything to run. -/
theorem runs_compose (s : Session) (first second : Program) :
    let apart := (s.continueWith first []).session.continueWith second []
    let whole := s.continueWith (first ++ second) []
    apart.session = whole.session ∧ (second ≠ [] → apart.value = whole.value) := by
  intro apart whole
  have same (h : apart = whole) :
      apart.session = whole.session ∧ (second ≠ [] → apart.value = whole.value) := by
    rw [h]
    exact ⟨rfl, fun _ => rfl⟩
  cases hs : s.stage with
  | none =>
    refine same ?_
    simp only [apart, whole, continueWith_of_none hs]
  | some stage =>
    by_cases hfirst : first = []
    · refine same ?_
      simp only [apart, whole, hfirst, continueWith_nil, List.nil_append]
    · by_cases hsecond : second = []
      · refine ⟨?_, fun h => absurd hsecond h⟩
        simp only [apart, whole, hsecond, continueWith_nil, List.append_nil]
      · obtain ⟨hsession, hvalue⟩ := continueWith_append hs hfirst hsecond
        exact ⟨hsession, fun _ => hvalue⟩

end Session
end BunnyGrid
