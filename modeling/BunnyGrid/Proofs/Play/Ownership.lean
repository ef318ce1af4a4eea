import BunnyGrid.Proofs.Play.Alike
import BunnyGrid.Proofs.Play.Simulation

/-! What a bunny leaves alone. Its blocks change no other bunny, log events of it alone, and take
from the grid only the strawberries that these events tell of. -/
namespace BunnyGrid

/-- Whether an event tells that a strawberry was picked at a place. -/
def Event.Picks (e : Event) (x y : Int) : Prop := e.kind = .strawberry ∧ e.x = x ∧ e.y = y

namespace Play

/-- From `p` to `q` a bunny touched only what is its own, and logged the events `new`. -/
structure TouchesOwn (who : Actor) (new : List Event) (p q : Play) : Prop where
  count : q.world.bunnies.length = p.world.bunnies.length
  others : ∀ slot, slot ≠ who.slot → q.world.bunnies[slot]? = p.world.bunnies[slot]?
  log : q.events.toList = p.events.toList ++ new
  own : ∀ e ∈ new, e.agent = who.label
  size : q.world.grid.size = p.world.grid.size
  /-- Where no strawberry was picked, the cell is what it was. -/
  kept : ∀ x y, (∀ e ∈ new, ¬ e.Picks x y) → q.world.grid.cell x y = p.world.grid.cell x y
  /-- Where one was picked, there was one, and the cell is empty now. -/
  picked : ∀ x y, (∃ e ∈ new, e.Picks x y) →
    (p.world.grid.cell x y).kind = .strawberry ∧ q.world.grid.cell x y = {}

variable {rules : Rules} {who : Actor} {p q r : Play} {new more : List Event}

theorem TouchesOwn.refl (who : Actor) (p : Play) : TouchesOwn who [] p p where
  count := rfl
  others _ _ := rfl
  log := by simp
  own := by simp
  size := rfl
  kept _ _ _ := rfl
  picked _ _ h := by simp at h

theorem TouchesOwn.trans (h : TouchesOwn who new p q) (h' : TouchesOwn who more q r) :
    TouchesOwn who (new ++ more) p r where
  count := h'.count.trans h.count
  others slot hslot := (h'.others slot hslot).trans (h.others slot hslot)
  log := by rw [h'.log, h.log, List.append_assoc]
  own e he := (List.mem_append.mp he).elim (h.own e) (h'.own e)
  size := h'.size.trans h.size
  kept x y hnone := by
    rw [h'.kept x y fun e he => hnone e (List.mem_append_right _ he),
      h.kept x y fun e he => hnone e (List.mem_append_left _ he)]
  picked x y := by
    rintro ⟨e, he, hpick⟩
    by_cases hfirst : ∃ e ∈ new, e.Picks x y
    · obtain ⟨hberry, hempty⟩ := h.picked x y hfirst
      refine ⟨hberry, ?_⟩
      -- An empty cell has nothing left to pick.
      have hnone : ∀ e ∈ more, ¬ e.Picks x y := fun e he hpick => by
        have hagain := (h'.picked x y ⟨e, he, hpick⟩).1
        rw [hempty] at hagain
        cases hagain
      rw [h'.kept x y hnone, hempty]
    · have hnone : ∀ e ∈ new, ¬ e.Picks x y := fun e he hpick => hfirst ⟨e, he, hpick⟩
      have hmore : e ∈ more := (List.mem_append.mp he).resolve_left fun he => hnone e he hpick
      obtain ⟨hberry, hempty⟩ := h'.picked x y ⟨e, hmore, hpick⟩
      rw [h.kept x y hnone] at hberry
      exact ⟨hberry, hempty⟩

/-- A bunny that does not land leaves the grid alone. -/
theorem Stays.touchesOwn (h : Stays who p q) : ∃ new, TouchesOwn who new p q := by
  obtain ⟨f, -, hbunnies⟩ := h.bunnies
  obtain ⟨new, hlog, hnew⟩ := h.log
  refine ⟨new, ?_⟩
  constructor
  case count => rw [hbunnies, List.length_modify]
  case others =>
    intro slot hslot
    rw [hbunnies, List.getElem?_modify_ne _ _ (Ne.symm hslot)]
  case log => exact hlog
  case own => exact fun e he => (hnew e he).1
  case size => rw [h.grid]
  case kept =>
    intro x y _
    rw [h.grid]
  case picked =>
    rintro x y ⟨e, he, hkind, -⟩
    exact absurd hkind ((hnew e he).2 .strawberry)

/-- A bunny that lands takes the strawberry of its cell, if there is one. -/
theorem land_touchesOwn {b : Bunny} (hb : p.bunny? who = some b) {x y : Int}
    (hxy : p.world.grid.contains x y = true) :
    ∃ new, TouchesOwn who new p (p.land rules who x y) := by
  obtain ⟨message, hlog⟩ := land_log rules p who hb x y
  let event := (b.landed rules (p.world.grid.cell x y) x y).event who.label
    (p.world.grid.cell x y).kind.landing message
  have hpicks (x' y' : Int) :
      event.Picks x' y' ↔ (p.world.grid.cell x y).kind = .strawberry ∧ x = x' ∧ y = y' := by
    have hkind (k : CellKind) : k.landing = .strawberry ↔ k = .strawberry := by
      cases k <;> decide
    simp [event, Event.Picks, Bunny.event, hkind]
  have hcell (x' y' : Int) : (p.world.grid.landed x y).cell x' y' =
      if (p.world.grid.cell x y).kind = .strawberry ∧ x = x' ∧ y = y' then {}
      else p.world.grid.cell x' y' := by
    unfold Grid.landed
    split
    · rw [Grid.cell_put hxy]
      grind
    · grind
  refine ⟨[event], ?_⟩
  constructor
  case count => rw [land_bunnies, List.length_modify]
  case others =>
    intro slot hslot
    rw [land_bunnies, List.getElem?_modify_ne _ _ (Ne.symm hslot)]
  case log => exact hlog
  case own =>
    intro e he
    rw [List.mem_singleton.mp he]
    rfl
  case size => rw [land_grid, Grid.landed_size]
  case kept =>
    intro x' y' hnone
    have hnot := mt (hpicks x' y').mpr (hnone event (.head _))
    rw [land_grid, hcell, if_neg hnot]
  case picked =>
    rintro x' y' ⟨e, he, hpick⟩
    rw [List.mem_singleton.mp he] at hpick
    have hthere := (hpicks x' y').mp hpick
    obtain ⟨hberry, rfl, rfl⟩ := id hthere
    rw [land_grid, hcell, if_pos hthere]
    exact ⟨hberry, rfl⟩

theorem Change.touchesOwn (h : Change rules who p q) : ∃ new, TouchesOwn who new p q := by
  rcases h.stays_or_lands with hstays | ⟨x, y, hact, hxy, rfl⟩
  · exact hstays.touchesOwn
  · obtain ⟨b, hb, -⟩ := exists_bunny_of_not_halted (not_halted_of_canAct hact)
    exact land_touchesOwn hb hxy

/-- Whatever a bunny changes, it leaves what is not its own alone. -/
theorem Changes.touchesOwn (h : Changes rules who p q) : ∃ new, TouchesOwn who new p q := by
  induction h with
  | refl => exact ⟨[], .refl who p⟩
  | tail _ h ih =>
    obtain ⟨new, hnew⟩ := ih
    obtain ⟨more, hmore⟩ := h.touchesOwn
    exact ⟨new ++ more, hnew.trans hmore⟩

end Play
end BunnyGrid
