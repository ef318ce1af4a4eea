import BunnyGrid.Play.Run
import BunnyGrid.Proofs.Play.Effect
import Mathlib.Logic.Relation

/-! The least changes that a bunny's blocks make to a play. Whatever a block does is a chain of
them, so what each of them keeps is kept by every run. -/
namespace BunnyGrid.Play

/-- One change of a play by a bunny. -/
inductive Change (rules : Rules) (who : Actor) (p : Play) : Play → Prop
  /-- The log is told something. -/
  | tell (notices : Array Notice) : Change rules who p { p with notices }
  | turn (h : p.canAct who = true) (t : Turn) : Change rules who p
      ((p.mapBunny who fun b => { b with facing := b.facing.turned t.quarters }).record
        who .turn "")
  | leave (h : p.canAct who = true) : Change rules who p (p.leave who)
  | land (h : p.canAct who = true) (x y : Int) (hxy : p.world.grid.contains x y = true) :
      Change rules who p (p.land rules who x y)
  /-- A malformed jump or block is skipped. -/
  | skip (h : p.halted who = false) : Change rules who p (p.record who .malformed "")
  | store (h : p.halted who = false) (f : Store → Store) : Change rules who p
      ((p.mapBunny who fun b => { b with vars := f b.vars }).record who .variable "")
  | tick (h : p.halted who = false) : Change rules who p (p.tick rules).1

/-- A chain of changes by one bunny. -/
abbrev Changes (rules : Rules) (who : Actor) : Play → Play → Prop :=
  Relation.ReflTransGen (Change rules who)

theorem not_halted_of_canAct {p : Play} {who : Actor} (h : p.canAct who = true) :
    p.halted who = false := by
  simp only [canAct, Bool.and_eq_true] at h
  simp_all [halted]

theorem not_ended_of_not_halted {p : Play} {who : Actor} (h : p.halted who = false) :
    p.world.ended = false := by
  simp only [halted, Bool.or_eq_false_iff] at h
  exact h.1

/-- A bunny that does not have to stop is there. -/
theorem exists_bunny_of_not_halted {p : Play} {who : Actor} (h : p.halted who = false) :
    ∃ b, p.bunny? who = some b ∧ b.active = true := by
  simp only [halted, Bool.or_eq_false_iff, Bool.not_eq_false'] at h
  exact Option.any_eq_true _ _ |>.mp h.2

section Act

variable (rules : Rules) (p : Play) (who : Actor)

theorem turn_change (t : Turn) : Change rules who p (p.turn who t).1 := by
  unfold turn
  split
  · exact .turn ‹_› t
  · exact .tell p.notices

/-- A jump is one change of a play whose log may have been told something. -/
theorem jump_change (kind : Jump) (amount : Int) :
    ∃ notices, Change rules who { p with notices } (Play.jump rules p who kind amount).1 := by
  unfold Play.jump
  split
  case isFalse => exact ⟨p.notices, .tell p.notices⟩
  case isTrue h =>
    split
    · have hh : (p.note (.malformedJump kind amount)).halted who = false := not_halted_of_canAct h
      exact ⟨_, .skip hh⟩
    · split
      · exact ⟨p.notices, .tell p.notices⟩
      · dsimp only
        split
        · exact ⟨p.notices, .land h _ _ ‹_›⟩
        · exact ⟨p.notices, .leave h⟩

theorem jump_changes (kind : Jump) (amount : Int) :
    Changes rules who p (Play.jump rules p who kind amount).1 := by
  obtain ⟨notices, h⟩ := jump_change rules p who kind amount
  exact .head (.tell notices) (.single h)

/-- An action is one change of a play whose log may have been told something. -/
theorem perform_change (h : p.halted who = false) (a : Action) :
    ∃ notices, Change rules who { p with notices } (p.perform rules who a) := by
  cases a with
  | jump kind amount =>
    obtain ⟨notices, hc⟩ := jump_change rules (p.noteAll (amount.notices (p.self? who))) who kind
      (amount.eval (p.self? who))
    exact ⟨notices, hc⟩
  | turn t => exact ⟨p.notices, turn_change rules p who t⟩
  | setVar name value =>
    exact ⟨_, .store (p := p.noteAll (value.notices (p.self? who))) h
      (.set name (value.eval (p.self? who)))⟩
  | changeVar name delta =>
    exact ⟨_, .store (p := p.noteAll (delta.notices (p.self? who))) h fun vars =>
      vars.set name (.number (Scalar.arith .add (vars.get name) (delta.eval (p.self? who))))⟩

theorem perform_changes (h : p.halted who = false) (a : Action) :
    Changes rules who p (p.perform rules who a) := by
  obtain ⟨notices, hc⟩ := perform_change rules p who h a
  exact .head (.tell notices) (.single hc)

/-- Actions are not counted themselves. -/
theorem perform_steps (a : Action) : (p.perform rules who a).world.steps = p.world.steps := by
  cases a with
  | jump kind amount =>
    simp only [perform, Play.jump]
    split
    case isFalse => rfl
    case isTrue =>
      split
      · simp [noteAll]
      · split
        · rfl
        · split <;> simp [noteAll]
  | turn t =>
    simp only [perform, Play.turn]
    split <;> simp
  | setVar | changeVar => simp [perform, noteAll]

theorem enter_changes : Changes rules who p (p.enter rules who).1 := by
  unfold enter
  split
  case isTrue => exact .refl
  case isFalse h => exact .single (.tick (by simpa using h))

end Act

section Kept

variable {rules : Rules} {who : Actor} {p q : Play}

/-- A change logs at most one event. -/
theorem Change.events (h : Change rules who p q) : ∃ new : List Event, new.length ≤ 1 ∧
    q.events.toList = p.events.toList ++ new := by
  cases h with
  | tell notices => exact ⟨[], by simp, by simp⟩
  | turn h t => exact record_events _ who .turn ""
  | leave h => exact leave_events p who
  | land h x y hxy => exact land_events rules p who x y
  | skip h => exact record_events p who .malformed ""
  | store h f => exact record_events _ who .variable ""
  | tick h => exact ⟨[], by simp, by simp⟩

/-- A bunny does not land: it stays in its place, and the grid is left alone. -/
structure Stays (who : Actor) (p q : Play) : Prop where
  grid : q.world.grid = p.world.grid
  bunnies : ∃ f : Bunny → Bunny,
    (∀ b, (f b).x = b.x ∧ (f b).y = b.y ∧ (f b).score = b.score ∧ (f b).moves = b.moves) ∧
      q.world.bunnies = p.world.bunnies.modify who.slot f
  log : ∃ new : List Event, q.events.toList = p.events.toList ++ new ∧
    ∀ e ∈ new, e.agent = who.label ∧ ∀ kind : CellKind, e.kind ≠ kind.landing

theorem stays_of_silent (hg : q.world.grid = p.world.grid) (hb : q.world.bunnies = p.world.bunnies)
    (he : q.events = p.events) : Stays who p q where
  grid := hg
  bunnies := ⟨id, fun _ => ⟨rfl, rfl, rfl, rfl⟩, by rw [hb, List.modify_id]⟩
  log := ⟨[], by rw [he, List.append_nil], by simp⟩

/-- A bunny changes in its place, and the log tells of it. -/
theorem stays_of_event {b : Bunny} {kind : EventKind} {message : String} {f : Bunny → Bunny}
    (hf : ∀ b, (f b).x = b.x ∧ (f b).y = b.y ∧ (f b).score = b.score ∧ (f b).moves = b.moves)
    (hk : ∀ cell : CellKind, kind ≠ cell.landing) (hg : q.world.grid = p.world.grid)
    (hb : q.world.bunnies = p.world.bunnies.modify who.slot f)
    (he : q.events.toList = p.events.toList ++ [b.event who.label kind message]) :
    Stays who p q where
  grid := hg
  bunnies := ⟨f, hf, hb⟩
  log := by
    refine ⟨_, he, fun e hmem => ?_⟩
    cases List.mem_singleton.mp hmem
    exact ⟨rfl, hk⟩

/-- A bunny stays in its place or lands on a cell of the grid. -/
theorem Change.stays_or_lands (h : Change rules who p q) : Stays who p q ∨
    ∃ x y, p.canAct who = true ∧ p.world.grid.contains x y = true ∧ q = p.land rules who x y := by
  cases h with
  | tell => exact .inl (stays_of_silent rfl rfl rfl)
  | tick => exact .inl (stays_of_silent (by simp) (by simp) (by simp))
  | land hact x y hxy => exact .inr ⟨x, y, hact, hxy, rfl⟩
  | turn hact t =>
    obtain ⟨b, hb, -⟩ := exists_bunny_of_not_halted (not_halted_of_canAct hact)
    let f (b : Bunny) : Bunny := { b with facing := b.facing.turned t.quarters }
    exact .inl (stays_of_event (f := f) (fun _ => ⟨rfl, rfl, rfl, rfl⟩) (by rintro ⟨⟩ <;> decide)
      (by simp) (by simp [f]) (mapBunny_log hb f .turn ""))
  | store hh f =>
    obtain ⟨b, hb, -⟩ := exists_bunny_of_not_halted hh
    let g (b : Bunny) : Bunny := { b with vars := f b.vars }
    exact .inl (stays_of_event (f := g) (fun _ => ⟨rfl, rfl, rfl, rfl⟩) (by rintro ⟨⟩ <;> decide)
      (by simp) (by simp [g]) (mapBunny_log hb g .variable ""))
  | skip hh =>
    obtain ⟨b, hb, -⟩ := exists_bunny_of_not_halted hh
    exact .inl (stays_of_event (f := id) (fun _ => ⟨rfl, rfl, rfl, rfl⟩)
      (by rintro ⟨⟩ <;> decide) (by simp) (by simp) (record_log p who .malformed "" hb))
  | leave hact =>
    obtain ⟨b, hb, -⟩ := exists_bunny_of_not_halted (not_halted_of_canAct hact)
    obtain ⟨message, hlog⟩ := leave_log p who hb
    exact .inl (stays_of_event (f := fun b => { b with active := false })
      (fun _ => ⟨rfl, rfl, rfl, rfl⟩) (by rintro ⟨⟩ <;> decide) (by simp) (by simp) hlog)

theorem Change.bunnies_length (h : Change rules who p q) :
    q.world.bunnies.length = p.world.bunnies.length := by
  rcases h.stays_or_lands with hstays | ⟨x, y, -, -, rfl⟩
  · obtain ⟨f, -, hbunnies⟩ := hstays.bunnies
    rw [hbunnies, List.length_modify]
  · rw [land_bunnies, List.length_modify]

/-- In a world that is over nothing changes. -/
theorem Change.frozen (h : Change rules who p q) (hp : p.world.ended = true) :
    q.world = p.world ∧ q.events = p.events := by
  have going {P : Prop} (h : p.halted who = false) : P := by
    rw [not_ended_of_not_halted h] at hp
    cases hp
  cases h with
  | tell notices => exact ⟨rfl, rfl⟩
  | turn h | leave h | land h => exact going (not_halted_of_canAct h)
  | skip h | store h | tick h => exact going h

/-- The status stays, or tells that the world is over. -/
theorem Change.status (h : Change rules who p q) : q.world.status = p.world.status ∨
    q.world.status = .boundaryExit ∨ q.world.status = .runawayLoop := by
  cases h with
  | tick h =>
    by_cases hl : (p.world.steps : Int) + 1 ≤ rules.stepLimit
    · exact .inl (by rw [tick_of_le rules p hl])
    · obtain ⟨-, -, told, hw⟩ := tick_of_lt rules p (Int.not_le.mp hl)
      exact .inr (.inr (by rw [hw]))
  | leave h =>
    obtain ⟨told, hw⟩ := leave_world p who
    rw [hw]
    dsimp only
    split
    · exact .inl rfl
    · exact .inr (.inl rfl)
  | land h x y hxy =>
    obtain ⟨told, hw⟩ := land_world rules p who x y
    exact .inl (by rw [hw])
  | _ => exact .inl (by simp)

/-- Only a count moves the counter, by one. -/
theorem Change.steps (h : Change rules who p q) :
    q.world.steps = p.world.steps ∨ q = (p.tick rules).1 := by
  cases h with
  | tick h => exact .inr rfl
  | _ => exact .inl (by simp)

theorem Change.steps_le (h : Change rules who p q) : p.world.steps ≤ q.world.steps := by
  rcases h.steps with h | rfl
  · exact Nat.le_of_eq h.symm
  · simp

/-- The counter never goes back. -/
theorem Changes.steps_le (h : Changes rules who p q) : p.world.steps ≤ q.world.steps := by
  induction h with
  | refl => exact Nat.le_refl _
  | tail _ h ih => exact Nat.le_trans ih h.steps_le

end Kept

end BunnyGrid.Play
