import BunnyGrid.Proofs.Play.Simulation

/-! What a turn of a task is to its bunny: the next of the blocks that it would run alone. -/
namespace BunnyGrid

namespace Play

variable {rules : Rules} {who : Actor} {p q : Play}

theorem enter_of_not_halted (h : p.halted who = false) : p.enter rules who = p.tick rules := by
  unfold enter
  rw [h]
  rfl

theorem enter_of_halted (h : p.halted who = true) : p.enter rules who = (p, false) := by
  unfold enter
  rw [h]
  rfl

/-- Who enters takes one count, and nothing else changes. -/
theorem eq_of_enter_true (h : p.enter rules who = (q, true)) :
    q = { p with world := { p.world with steps := p.world.steps + 1 } } := by
  cases hh : p.halted who with
  | true =>
    rw [enter_of_halted hh] at h
    cases h
  | false =>
    rw [enter_of_not_halted hh] at h
    exact (eq_of_tick h).2

/-- Who may not enter has to stop, or its count is the one past the limit. -/
theorem cases_of_enter_false (h : p.enter rules who = (q, false)) :
    p.halted who = true ∧ q = p ∨ q.world.IsCut ∧ q.world.steps = p.world.steps + 1 := by
  cases hh : p.halted who with
  | true =>
    rw [enter_of_halted hh] at h
    cases h
    exact .inl ⟨rfl, rfl⟩
  | false =>
    rw [enter_of_not_halted hh] at h
    have hsteps := tick_steps rules p
    rw [h] at hsteps
    exact .inr ⟨isCut_of_tick h, hsteps⟩

theorem halted_of_ended (h : p.world.ended = true) (who : Actor) : p.halted who = true := by
  unfold halted
  rw [h]
  rfl

/-- With no block left, or for a bunny that has to stop, nothing is run. -/
theorem runs_of_settled {bs : List Block} (h : bs = [] ∨ p.halted who = true) :
    Runs rules who (.blocks bs) p p := by
  cases bs with
  | nil => exact .nil
  | cons b rest =>
    have hh : p.halted who = true := h.resolve_left (List.cons_ne_nil b rest)
    exact .stop (enter_of_halted hh)

end Play

namespace Task
open Play

section Settle

variable (t : Task) (p : Play)

@[simp] theorem settle_who : (t.settle p).who = t.who := by
  unfold settle
  split <;> rfl

@[simp] theorem settle_program : (t.settle p).program = t.program := by
  unfold settle
  split <;> rfl

@[simp] theorem settle_cursor : (t.settle p).cursor = t.cursor := by
  unfold settle
  split <;> rfl

end Settle

/-- The blocks that a task has not run yet. -/
def remaining (t : Task) : List Block := t.program.drop t.cursor

/-- A task is finished only if it has no block left or its bunny has to stop. -/
def Sound (t : Task) (p : Play) : Prop :=
  t.finished = true → t.remaining = [] ∨ p.halted t.who = true

theorem settle_sound {t : Task} (h : t.finished = false) (p : Play) : (t.settle p).Sound p := by
  unfold settle
  split
  case isTrue hs =>
    intro _
    refine ((Bool.or_eq_true _ _).mp hs).imp_left fun hnone => ?_
    exact List.drop_eq_nil_of_le (by simpa [isExhausted] using hnone)
  case isFalse =>
    intro hf
    rw [h] at hf
    cases hf

variable {rules : Rules} {t t' : Task} {p q : Play}

/-- A turn runs nothing, or the next of the blocks that are left, unless the count for it passes the
step limit. -/
theorem Moves.inv (h : Moves rules t p t' q) (hs : t.Sound p) : t'.who = t.who ∧ t'.Sound q ∧
    (q = p ∧ t'.remaining = t.remaining ∨
      p.halted t.who = false ∧ ∃ b, t.remaining = b :: t'.remaining ∧
        (p.tick rules = (q, false) ∨
          ∃ r, p.tick rules = (r, true) ∧ Runs rules t.who (.block b) r q)) := by
  have next {b : Block} (hf : t.finished = false) (hb : t.program[t.cursor]? = some b) :
      let t' := { t with cursor := t.cursor + 1 }.settle q
      t'.who = t.who ∧ t'.Sound q ∧ t.remaining = b :: t'.remaining := by
    obtain ⟨hlt, rfl⟩ := List.getElem?_eq_some_iff.mp hb
    refine ⟨settle_who .., settle_sound (t := { t with cursor := t.cursor + 1 }) hf q, ?_⟩
    rw [remaining, remaining, settle_program, settle_cursor]
    exact List.drop_eq_getElem_cons hlt
  cases h with
  | rest => exact ⟨rfl, hs, .inl ⟨rfl, rfl⟩⟩
  | stop hf hstop =>
    refine ⟨rfl, fun _ => ?_, .inl ⟨rfl, rfl⟩⟩
    rcases hstop with hh | hb
    · exact .inr hh
    · exact .inl (by simpa [remaining] using hb)
  | late hf hh hb ht =>
    obtain ⟨hwho, hsound, hleft⟩ := next hf hb
    exact ⟨hwho, hsound, .inr ⟨hh, _, hleft, .inl ht⟩⟩
  | take hf hh hb ht hr =>
    obtain ⟨hwho, hsound, hleft⟩ := next hf hb
    exact ⟨hwho, hsound, .inr ⟨hh, _, hleft, .inr ⟨_, ht, hr⟩⟩⟩

/-- Beside a task with nothing to run a bunny runs its blocks alone. -/
theorem Alternates.alone {a b : Task} (h : Alternates rules a b p q) (hs : a.Sound p)
    (hb : b.remaining = []) : Runs rules a.who (.blocks a.remaining) p q := by
  induction h with
  | done h =>
    simp only [Bool.or_eq_true, Bool.and_eq_true] at h
    refine runs_of_settled ?_
    rcases h with ⟨h, -⟩ | h
    · exact hs h
    · exact .inr (halted_of_ended h _)
  | @round a a' b b' p q r s h hma hmb hrest ih =>
    obtain ⟨-, -, ⟨rfl, hb'⟩ | ⟨-, c, hc, -⟩⟩ := hmb.inv fun _ => .inl hb
    · obtain ⟨hwho, hs', hturn⟩ := hma.inv hs
      have hrest : Runs rules a.who (.blocks a'.remaining) r s := by
        have hrest' := ih hs' (hb'.trans hb)
        rwa [hwho] at hrest'
      rcases hturn with ⟨rfl, hleft⟩ | ⟨hh, c, hleft, ht | ⟨q₀, ht, hr⟩⟩
      · rw [← hleft]
        exact hrest
      · have hover : r.halted a.who = true := halted_of_ended (isCut_of_tick ht).1 _
        cases hrest.det (runs_of_settled (.inr hover))
        rw [hleft]
        exact .stop ((enter_of_not_halted hh).trans ht)
      · rw [hleft]
        exact .cons ((enter_of_not_halted hh).trans ht) hr hrest
    · rw [hb] at hc
      cases hc

end Task

namespace Play

/-- With no second program the first bunny runs alone, on every map. -/
theorem Ends.alone_of_nil {rules : Rules} {first : Program} {p q : Play}
    (h : Ends rules first [] p q) (hp : p.world.ended = false) :
    ∃ r, Runs rules (.ofSlot 0) (.blocks first) p.start r ∧ q = r.finish := by
  cases h with
  | ended h =>
    rw [h] at hp
    cases hp
  | alone _ _ hr => exact ⟨_, hr, rfl⟩
  | pair _ _ hr =>
    have hsound : Task.Sound { who := .ofSlot 0, program := first } p.start := nofun
    exact ⟨_, hr.alone hsound rfl, rfl⟩

end Play
end BunnyGrid
