import BunnyGrid.Proofs.Play.Schedule

/-! Events are paid for by counts: a run logs at most one event for each count that it takes. -/
namespace BunnyGrid

namespace Play

/-- From `p` to `q` the log only grew, by at most `k` more events than the counter did. -/
def Paced (k : Int) (p q : Play) : Prop :=
  ∃ new : List Event, q.events.toList = p.events.toList ++ new ∧
    (new.length : Int) + p.world.steps ≤ q.world.steps + k

variable {rules : Rules} {who : Actor} {p q r : Play} {k l : Int}

theorem Paced.of_eq (he : q.events = p.events) (hs : p.world.steps ≤ q.world.steps) :
    Paced 0 p q := ⟨[], by simp [he], by simpa using hs⟩

theorem Paced.refl (p : Play) : Paced 0 p p := .of_eq rfl (Nat.le_refl _)

theorem Paced.mono (h : Paced k p q) (hkl : k ≤ l) : Paced l p q := by
  obtain ⟨new, he, hn⟩ := h
  exact ⟨new, he, by omega⟩

theorem Paced.trans (h : Paced k p q) (h' : Paced l q r) : Paced (k + l) p r := by
  obtain ⟨new, he, hn⟩ := h
  obtain ⟨new', he', hn'⟩ := h'
  refine ⟨new ++ new', by rw [he', he, List.append_assoc], ?_⟩
  simp only [List.length_append]
  omega

theorem Change.paced (h : Change rules who p q) : Paced 1 p q := by
  obtain ⟨new, hn, he⟩ := h.events
  have hs := h.steps_le
  exact ⟨new, he, by omega⟩

theorem perform_paced (h : p.halted who = false) (a : Action) :
    Paced 1 p (p.perform rules who a) := by
  obtain ⟨notices, hc⟩ := perform_change rules p who h a
  exact hc.paced

theorem paced_of_test {condition : Expr} {flag : Bool} (h : p.test who condition = (q, flag)) :
    Paced 0 p q := by
  cases h
  exact .of_eq rfl (Nat.le_refl _)

/-- A count pays for one event. -/
theorem tick_paced (rules : Rules) (p : Play) : Paced (-1) p (p.tick rules).1 :=
  ⟨[], by simp, by simp only [tick_steps, List.length_nil]; omega⟩

theorem paced_of_tick {flag : Bool} (h : p.tick rules = (q, flag)) : Paced (-1) p q := by
  have := tick_paced rules p
  rwa [h] at this

theorem paced_of_enter_true (h : p.enter rules who = (q, true)) : Paced (-1) p q := by
  unfold enter at h
  split at h
  · cases h
  · exact paced_of_tick h

theorem paced_of_enter_false (h : p.enter rules who = (q, false)) : Paced 0 p q := by
  unfold enter at h
  split at h
  · cases h
    exact .refl p
  · exact (paced_of_tick h).mono (by omega)

/-- The events that code may log before it is first counted. -/
def Code.credit : Code → Int
  | .block _ => 1
  | _ => 0

theorem Runs.paced {c : Code} (h : Runs rules who c p q) : Paced c.credit p q := by
  induction h with
  | halt h => exact (Paced.refl _).mono (by simp [Code.credit])
  | nil | roundsEnd => exact .refl _
  | act h => exact perform_paced h _
  | @unknown kind raw p h =>
    have hc : Change rules who (p.note (.malformedBlock kind raw)) _ := .skip h
    exact hc.paced
  | yes _ ht _ ih | no _ ht _ ih => exact ((paced_of_test ht).trans ih).mono (by simp [Code.credit])
  | whileLoop _ _ ih => exact ih.mono (by simp [Code.credit])
  | repeatLoop _ _ ih => exact Paced.mono ih (by simp [Code.credit])
  | stop h | roundsStop h => exact paced_of_enter_false h
  | cons h _ _ ihb ihr | roundsNext h _ _ ihb ihr =>
    exact ((paced_of_enter_true h).trans (ihb.trans ihr)).mono (by simp [Code.credit])
  | loopEnd ht => exact paced_of_test ht
  | loopStop ht h => exact (paced_of_test ht).trans (paced_of_enter_false h)
  | loopNext ht h _ _ ihb ihl =>
    exact ((paced_of_test ht).trans ((paced_of_enter_true h).trans (ihb.trans ihl))).mono
      (by simp [Code.credit])

end Play

namespace Task
open Play

variable {rules : Rules} {p q : Play}

theorem Moves.paced {t t' : Task} (h : Moves rules t p t' q) : Paced 0 p q := by
  cases h with
  | rest | stop => exact .refl _
  | late _ _ _ ht => exact (paced_of_tick ht).mono (by omega)
  | take _ _ _ ht hr => exact (paced_of_tick ht).trans hr.paced

theorem Alternates.paced {a b : Task} (h : Alternates rules a b p q) : Paced 0 p q := by
  induction h with
  | done => exact .refl _
  | round _ ha hb _ ih => exact ha.paced.trans (hb.paced.trans ih)

end Task

namespace Play

theorem finish_paced (p : Play) : Paced 0 p p.finish := by
  unfold finish
  split <;> exact .of_eq rfl (Nat.le_refl _)

/-- A run logs at most one event for each count. -/
theorem Ends.paced {rules : Rules} {first second : Program} {p q : Play}
    (h : Ends rules first second p q) : Paced 0 p q := by
  have hstart : Paced 0 p p.start := .of_eq rfl (Nat.le_refl _)
  cases h with
  | ended => exact .refl _
  | alone _ _ hr => exact hstart.trans (hr.paced.trans (finish_paced _))
  | pair _ _ hr => exact hstart.trans (hr.paced.trans (finish_paced _))

end Play
end BunnyGrid
