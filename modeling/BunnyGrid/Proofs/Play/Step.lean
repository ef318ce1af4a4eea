import BunnyGrid.Proofs.Play.Schedule

/-! Plays step by step: the changes that bunnies make, and the start and the finish of a run. -/
namespace BunnyGrid

namespace Play

/-- A chain of changes by any bunnies. -/
abbrev Course (rules : Rules) : Play → Play → Prop :=
  Relation.ReflTransGen fun p q => ∃ who, Change rules who p q

/-- One step of a play. -/
inductive Step (rules : Rules) (p : Play) : Play → Prop
  | change {who q} (h : Change rules who p q) : Step rules p q
  | start (h : p.world.ended = false) (message : String) :
      Step rules p ((p.setStatus .running).setMessage message)
  | finish (h : p.world.status = .idle ∨ p.world.status = .running) (message : String) :
      Step rules p ((p.setStatus .completed).setMessage message)

/-- A chain of steps. -/
abbrev Steps (rules : Rules) : Play → Play → Prop := Relation.ReflTransGen (Step rules)

variable {rules : Rules} {who : Actor} {first second : Program} {p q : Play}

theorem Change.course (h : Change rules who p q) : Course rules p q := .single ⟨who, h⟩

theorem Changes.course (h : Changes rules who p q) : Course rules p q :=
  Relation.ReflTransGen.mono (fun _ _ h => ⟨who, h⟩) _ _ h

theorem Course.steps (h : Course rules p q) : Steps rules p q :=
  Relation.ReflTransGen.mono (fun _ _ ⟨_, h⟩ => .change h) _ _ h

theorem Course.bunnies_length (h : Course rules p q) :
    q.world.bunnies.length = p.world.bunnies.length := by
  induction h with
  | refl => rfl
  | tail _ h ih =>
    obtain ⟨who, h⟩ := h
    exact h.bunnies_length.trans ih

theorem Steps.bunnies_length (h : Steps rules p q) :
    q.world.bunnies.length = p.world.bunnies.length := by
  induction h with
  | refl => rfl
  | tail _ h ih =>
    cases h with
    | change h => exact h.bunnies_length.trans ih
    | start | finish => exact ih

end Play

namespace Task
open Play

variable {rules : Rules} {p q : Play}

theorem Moves.changes {t t' : Task} (h : Moves rules t p t' q) : Changes rules t.who p q := by
  cases h with
  | rest | stop => exact .refl
  | late _ hh _ ht =>
    have hc : Change rules t.who p (p.tick rules).1 := .tick hh
    rw [ht] at hc
    exact .single hc
  | take _ hh _ ht hr =>
    have hc : Change rules t.who p (p.tick rules).1 := .tick hh
    rw [ht] at hc
    exact .head hc hr.changes

theorem Alternates.course {a b : Task} (h : Alternates rules a b p q) : Course rules p q := by
  induction h with
  | done => exact .refl
  | round _ ha hb _ ih => exact ha.changes.course.trans (hb.changes.course.trans ih)

end Task

namespace Play

variable {rules : Rules} {who : Actor} {first second : Program} {p q : Play}

/-- A run in a world that is not over is a start, a chain of changes, and a finish. -/
theorem Ends.course (h : Ends rules first second p q) :
    (p.world.ended = true ∧ q = p) ∨
      (p.world.ended = false ∧ ∃ r, Course rules p.start r ∧ q = r.finish) := by
  cases h with
  | ended h => exact .inl ⟨h, rfl⟩
  | alone h _ hr => exact .inr ⟨h, _, hr.changes.course, rfl⟩
  | pair h _ hr => exact .inr ⟨h, _, hr.course, rfl⟩

theorem finish_bunnies (p : Play) : p.finish.world.bunnies = p.world.bunnies := by
  unfold finish
  split <;> rfl

theorem finish_events (p : Play) : p.finish.events = p.events := by
  unfold finish
  split <;> rfl

theorem finish_steps (p : Play) : p.finish.world.steps = p.world.steps := by
  unfold finish
  split <;> rfl

theorem finish_ended (p : Play) : p.finish.world.ended = p.world.ended := by
  unfold finish
  split <;> rfl

theorem finish_of_running (h : p.world.status = .running) :
    p.finish.world.status = .completed := by
  unfold finish
  rw [if_pos h]
  rfl

theorem finish_of_not_running (h : p.world.status ≠ .running) : p.finish = p := by
  unfold finish
  rw [if_neg h]

/-- Whether there is nothing to run: no first program, and no second one for a second bunny. -/
def HasNothing (first second : Program) (p : Play) : Prop :=
  first = [] ∧ (second = [] ∨ p.world.bunnies.length = 1)

/-- With nothing to run a run is refused. -/
theorem run_of_hasNothing (rules : Rules) (h : p.HasNothing first second) :
    (p.run rules first second).1.world = p.world ∧ (p.run rules first second).1.events = p.events ∧
      (p.run rules first second).2 =
        { p.result with status := .emptyProgram, message := "Build a program first" } := by
  obtain ⟨rfl, h⟩ := h
  by_cases hi : p.world.bunnies.length = 1 ∧ !second.isEmpty
  · simp only [run, hi]
    exact ⟨rfl, rfl, rfl⟩
  · have : second = [] := by
      rcases h with h | h
      · exact h
      · simpa [h] using hi
    subst this
    simp [run]

/-- A second program that the only bunny has no use for might as well be empty. -/
theorem run_of_ignored (h : p.world.bunnies.length = 1 ∧ (!second.isEmpty) = true) :
    p.run rules first second = (p.note .secondIgnored).run rules first [] := by
  have hnone : ¬ (p.world.bunnies.length = 1 ∧ (!([] : Program).isEmpty) = true) := by simp
  unfold Play.run
  dsimp only
  rw [if_pos h, if_pos h, note_world, if_neg hnone, if_neg hnone]
  rfl

/-- A single bunny has no use for a second program. -/
theorem Ends.of_length_eq_one {other : Program} (h : Ends rules first other p q)
    (hn : p.world.bunnies.length = 1) : Ends rules first second p q := by
  cases h with
  | ended h => exact .ended h
  | alone h hn hr => exact .alone h hn hr
  | pair _ hn' _ => exact absurd hn hn'

/-- With something to run the programs come to their end. -/
theorem run_ends (rules : Rules) (h : ¬ p.HasNothing first second) : ∃ p' q : Play,
    p'.world = p.world ∧ p'.events = p.events ∧ Ends rules first second p' q ∧
      (p.run rules first second).1.world = q.world ∧
      (p.run rules first second).1.events = q.events ∧ (p.run rules first second).2 = q.result := by
  have ends (other : Program) (p : Play) : Ends rules first other p
      (if p.world.ended then p else p.runToEnd rules first other) := by
    split
    case isTrue h => exact .ended h
    case isFalse h => exact runToEnd_ends (by simpa using h)
  by_cases hi : p.world.bunnies.length = 1 ∧ !second.isEmpty
  · have hf : first.isEmpty = false := by
      simp_all [HasNothing]
    refine ⟨p.note .secondIgnored, _, rfl, rfl, (ends [] _).of_length_eq_one hi.1, ?_⟩
    simp only [run, if_pos hi, hf]
    exact ⟨rfl, rfl, rfl⟩
  · have hf : (first.isEmpty && second.isEmpty) = false := by
      simp only [HasNothing] at h
      grind
    refine ⟨p, _, rfl, rfl, ends second p, ?_⟩
    simp only [run, if_neg hi, hf]
    exact ⟨rfl, rfl, rfl⟩

end Play
end BunnyGrid
