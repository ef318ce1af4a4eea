import BunnyGrid.Play.Task
import BunnyGrid.Proofs.Play.Derivation

/-! The rules by which whole programs are played, alone or by turns, with no bound on the number of
turns. As for single blocks, they derive exactly what the executable definitions give. -/
namespace BunnyGrid

namespace Task

/-- `Moves rules t p t' q` says that a step of the task `t` in `p` leads to `t'` and `q`. -/
inductive Moves (rules : Rules) : Task → Play → Task → Play → Prop
  | rest {t p} (h : t.finished = true) : Moves rules t p t p
  | stop {t p} (h : t.finished = false)
      (hs : p.halted t.who = true ∨ t.program[t.cursor]? = none) :
      Moves rules t p { t with finished := true } p
  | late {t p q b} (h : t.finished = false) (hh : p.halted t.who = false)
      (hb : t.program[t.cursor]? = some b) (ht : p.tick rules = (q, false)) :
      Moves rules t p ({ t with cursor := t.cursor + 1 }.settle q) q
  | take {t p q r b} (h : t.finished = false) (hh : p.halted t.who = false)
      (hb : t.program[t.cursor]? = some b) (ht : p.tick rules = (q, true))
      (hr : Play.Runs rules t.who (.block b) q r) :
      Moves rules t p ({ t with cursor := t.cursor + 1 }.settle r) r

/-- `Alternates rules a b p q` says that the tasks `a` and `b`, which take turns from `p` on, come
to an end in `q`. -/
inductive Alternates (rules : Rules) : Task → Task → Play → Play → Prop
  | done {a b p} (h : ((a.finished && b.finished) || p.world.ended) = true) :
      Alternates rules a b p p
  | round {a a' b b' p q r s} (h : ((a.finished && b.finished) || p.world.ended) = false)
      (ha : Moves rules a p a' q) (hb : Moves rules b q b' r) (hr : Alternates rules a' b' r s) :
      Alternates rules a b p s

/-- A task takes at most this many more turns. -/
def left (t : Task) : Nat := if t.finished then 0 else t.program.length - t.cursor + 1

variable {rules : Rules}

theorem settle_left_le (t : Task) (p : Play) : (t.settle p).left ≤ t.left := by
  unfold settle
  split
  · simp [left]
  · exact Nat.le_refl _

/-- A turn of an unfinished task leaves it fewer turns. -/
theorem Moves.left_lt {t t' : Task} {p q : Play} (h : Moves rules t p t' q)
    (ht : t.finished = false) : t'.left < t.left := by
  have next_left (b : Block) (hb : t.program[t.cursor]? = some b) :
      { t with cursor := t.cursor + 1 }.left < t.left := by
    obtain ⟨hlt, -⟩ := List.getElem?_eq_some_iff.mp hb
    simp only [left, ht]
    simp only [Bool.false_eq_true, if_false]
    omega
  cases h with
  | rest h => simp_all
  | stop => simp [left, ht]
  | late _ _ hb _ => exact Nat.lt_of_le_of_lt (settle_left_le _ _) (next_left _ hb)
  | take _ _ hb _ _ => exact Nat.lt_of_le_of_lt (settle_left_le _ _) (next_left _ hb)

theorem Moves.left_le {t t' : Task} {p q : Play} {n : Nat} (h : Moves rules t p t' q)
    (hn : t.left ≤ n + 1) : t'.left ≤ n := by
  cases ht : t.finished with
  | false =>
    have := h.left_lt ht
    omega
  | true =>
    cases h with
    | rest => simp [left, ht]
    | stop h | late h | take h => simp_all

theorem step_moves (rules : Rules) (t : Task) (p : Play) :
    Moves rules t p (t.step rules p).1 (t.step rules p).2 := by
  unfold step
  split
  case isTrue h => exact .rest h
  case isFalse h =>
    have hf : t.finished = false := by simpa using h
    split
    case isTrue hh => exact .stop hf (.inl hh)
    case isFalse hh =>
      have hh : p.halted t.who = false := by simpa using hh
      cases hb : t.program[t.cursor]? with
      | none => exact .stop hf (.inr hb)
      | some b =>
        rcases ht : p.tick rules with ⟨q, _ | _⟩
        · exact .late hf hh hb ht
        · exact .take hf hh hb ht (Play.exec_runs b q)

/-- Enough rounds see both tasks to their end. -/
theorem alternate_alternates (n : Nat) (a b : Task) (p : Play) (ha : a.left ≤ n) (hb : b.left ≤ n) :
    Alternates rules a b p (alternate rules n a b p) := by
  induction n generalizing a b p with
  | zero =>
    have finished (t : Task) (h : t.left ≤ 0) : t.finished = true := by
      simpa [left] using h
    exact .done (by simp [finished a ha, finished b hb])
  | succ n ih =>
    rw [alternate]
    split
    case isTrue h => exact .done h
    case isFalse h =>
      have hma := step_moves rules a p
      have hmb := step_moves rules b (a.step rules p).2
      exact .round (by simpa using h) hma hmb (ih _ _ _ (hma.left_le ha) (hmb.left_le hb))

theorem Moves.det {t t₁ t₂ : Task} {p q r : Play} (h : Moves rules t p t₁ q)
    (h' : Moves rules t p t₂ r) : t₁ = t₂ ∧ q = r := by
  cases h with
  | rest h =>
    cases h' with
    | rest => exact ⟨rfl, rfl⟩
    | stop h' | late h' | take h' => simp_all
  | stop h hs =>
    cases h' with
    | rest h' => simp_all
    | stop => exact ⟨rfl, rfl⟩
    | late _ hh' hb' _ | take _ hh' hb' _ _ => rcases hs with hs | hs <;> simp_all
  | late h hh hb ht =>
    cases h' with
    | rest h' => simp_all
    | stop _ hs' => rcases hs' with hs' | hs' <;> simp_all
    | late _ _ hb' ht' =>
      cases ht.symm.trans ht'
      exact ⟨rfl, rfl⟩
    | take _ _ _ ht' _ => cases ht.symm.trans ht'
  | take h hh hb ht hr =>
    cases h' with
    | rest h' => simp_all
    | stop _ hs' => rcases hs' with hs' | hs' <;> simp_all
    | late _ _ _ ht' => cases ht.symm.trans ht'
    | take _ _ hb' ht' hr' =>
      cases hb.symm.trans hb'
      cases ht.symm.trans ht'
      cases hr.det hr'
      exact ⟨rfl, rfl⟩

theorem Alternates.det {a b : Task} {p q r : Play} (h : Alternates rules a b p q)
    (h' : Alternates rules a b p r) : q = r := by
  induction h generalizing r with
  | done h =>
    cases h' with
    | done => rfl
    | round h' => simp_all
  | round h ha hb _ ih =>
    cases h' with
    | done h' => simp_all
    | round _ ha' hb' hr' =>
      obtain ⟨rfl, rfl⟩ := ha.det ha'
      obtain ⟨rfl, rfl⟩ := hb.det hb'
      exact ih hr'

end Task

namespace Play

/-- `Ends rules first second p q` says that programs that start in a world as in `p` come to their
end in `q`. In a world that is over nothing happens. -/
inductive Ends (rules : Rules) (first second : Program) (p : Play) : Play → Prop
  | ended (h : p.world.ended = true) : Ends rules first second p p
  | alone {q} (h : p.world.ended = false) (hn : p.world.bunnies.length = 1)
      (hr : Runs rules (.ofSlot 0) (.blocks first) p.start q) : Ends rules first second p q.finish
  | pair {q} (h : p.world.ended = false) (hn : p.world.bunnies.length ≠ 1)
      (hr : Task.Alternates rules { who := .ofSlot 0, program := first }
        { who := .ofSlot 1, program := second } p.start q) : Ends rules first second p q.finish

variable {rules : Rules} {first second : Program} {p q r : Play}

theorem runToEnd_ends (h : p.world.ended = false) :
    Ends rules first second p (p.runToEnd rules first second) := by
  unfold runToEnd
  dsimp only
  split
  case isTrue hn => exact .alone h hn (execAll_runs first p.start)
  case isFalse hn =>
    refine .pair h hn (Task.alternate_alternates _ _ _ _ ?_ ?_)
    all_goals
      simp only [Task.left, Bool.false_eq_true, if_false]
      omega

theorem Ends.det (h : Ends rules first second p q) (h' : Ends rules first second p r) : q = r := by
  cases h with
  | ended h => cases h' <;> simp_all
  | alone h hn hr =>
    cases h' with
    | ended h' | pair _ h' _ => simp_all
    | alone _ _ hr' => rw [hr.det hr']
  | pair h hn hr =>
    cases h' with
    | ended h' | alone _ h' _ => simp_all
    | pair _ _ hr' => rw [hr.det hr']

end Play
end BunnyGrid
