import BunnyGrid.Proofs.Play.Congruence
import BunnyGrid.Proofs.World.Grid

/-! Plays that a bunny's blocks cannot tell apart. Only the score tells a strawberry from an empty
cell, and no block reads a score, so what another bunny does is not felt. -/
namespace BunnyGrid

/-- A bunny but for its score. -/
def Bunny.unscored (b : Bunny) : Bunny := { b with score := 0 }

/-- Place, facing and moves of a bunny after each of its events. -/
def Event.trail (label : Int) (events : List Event) : List (Int × Int × Direction × Int) :=
  (events.filter fun e => e.agent = label).map fun e => (e.x, e.y, e.facing, e.moves)

theorem Event.trail_append (label : Int) (events new : List Event) :
    trail label (events ++ new) = trail label events ++ trail label new := by
  simp [trail]

theorem Event.trail_event (b : Bunny) (label : Int) (kind : EventKind) (message : String) :
    trail label [b.event label kind message] = [(b.x, b.y, b.facing, b.moves)] := by
  simp [trail, Bunny.event]

theorem Event.trail_of_others {label : Int} {events : List Event}
    (h : ∀ e ∈ events, e.agent ≠ label) : trail label events = [] := by
  have hnone : events.filter (fun e => e.agent = label) = [] := by
    rw [List.filter_eq_nil_iff]
    intro e hmem
    simpa using h e hmem
  rw [trail, hnone, List.map_nil]

/-- An expression reads place and variables of its bunny, and nothing else. -/
theorem Expr.eval_map {f : Bunny → Bunny}
    (hf : ∀ b, (f b).x = b.x ∧ (f b).y = b.y ∧ (f b).vars = b.vars) (self : Option Bunny)
    (e : Expr) : e.eval (self.map f) = e.eval self := by
  induction e with
  | literal | unknown => rfl
  | coord axis =>
    cases self with
    | none => rfl
    | some b => cases axis <;> simp [eval, hf b]
  | var name =>
    cases self with
    | none => rfl
    | some b => simp [eval, hf b]
  | arith op l r ihl ihr | compare op l r ihl ihr | logic op l r ihl ihr =>
    simp only [eval, ihl, ihr]
  | not e ih => simp only [eval, ih]

theorem Expr.eval_eq_of_map_eq {f : Bunny → Bunny}
    (hf : ∀ b, (f b).x = b.x ∧ (f b).y = b.y ∧ (f b).vars = b.vars) {self self' : Option Bunny}
    (h : self'.map f = self.map f) (e : Expr) : e.eval self' = e.eval self := by
  rw [← eval_map hf self', h, eval_map hf]

/-- No expression tells a bunny's score. -/
theorem Expr.eval_congr {self self' : Option Bunny}
    (h : self'.map Bunny.unscored = self.map Bunny.unscored) (e : Expr) :
    e.eval self' = e.eval self :=
  eval_eq_of_map_eq (f := Bunny.unscored) (fun _ => ⟨rfl, rfl, rfl⟩) h e

/-- A landing as it is felt but for the score: only puddles are told from other cells. -/
def Bunny.felt (rules : Rules) (puddle : Bool) (x y : Int) (b : Bunny) : Bunny :=
  { b with x, y, moves := b.moves + 1 + if puddle then rules.puddleCost else 0 }

theorem Bunny.unscored_landed (rules : Rules) (cell : Cell) (x y : Int) (b : Bunny) :
    (b.landed rules cell x y).unscored = b.unscored.felt rules (cell.kind = .puddle) x y := by
  unfold landed felt unscored
  cases cell.kind <;> simp

/-- A landing leaves the puddles. -/
theorem Grid.landed_puddle (g : Grid) (x y x' y' : Int) :
    ((g.landed x y).cell x' y').kind = .puddle ↔ (g.cell x' y').kind = .puddle := by
  unfold landed
  split
  case isFalse => rfl
  case isTrue hk =>
    have hxy : g.contains x y = true := by
      by_contra hout
      rw [cell_of_not_contains (by simpa using hout)] at hk
      cases hk
    rw [cell_put hxy]
    split
    case isFalse => rfl
    case isTrue hsame =>
      rw [hsame.1, hsame.2, hk]
      decide

theorem Grid.landed_size (g : Grid) (x y : Int) : (g.landed x y).size = g.size := by
  unfold landed
  split
  · exact put_size ..
  · rfl

/-- Two bunnies that the world and the log tell apart. -/
structure Actor.Apart (who other : Actor) : Prop where
  slot : other.slot ≠ who.slot
  label : other.label ≠ who.label

theorem Actor.Apart.symm {who other : Actor} (h : who.Apart other) : other.Apart who :=
  ⟨h.slot.symm, h.label.symm⟩

namespace Play

/-- Two plays are alike for a bunny if they agree in all that its blocks can depend on. -/
structure Alike (who : Actor) (p p' : Play) : Prop where
  bunny : (p'.bunny? who).map Bunny.unscored = (p.bunny? who).map Bunny.unscored
  size : p'.world.grid.size = p.world.grid.size
  puddle : ∀ x y,
    (p'.world.grid.cell x y).kind = .puddle ↔ (p.world.grid.cell x y).kind = .puddle
  trail : Event.trail who.label p'.events.toList = Event.trail who.label p.events.toList

section Alike

variable {rules : Rules} {who : Actor} {p p' q : Play}

theorem Alike.refl (who : Actor) (p : Play) : Alike who p p := ⟨rfl, rfl, fun _ _ => .rfl, rfl⟩

theorem Alike.symm (h : Alike who p q) : Alike who q p :=
  ⟨h.bunny.symm, h.size.symm, fun x y => (h.puddle x y).symm, h.trail.symm⟩

theorem Alike.trans {r : Play} (h : Alike who p q) (h' : Alike who q r) : Alike who p r :=
  ⟨h'.bunny.trans h.bunny, h'.size.trans h.size, fun x y => (h'.puddle x y).trans (h.puddle x y),
    h'.trail.trans h.trail⟩

theorem Alike.tell (h : Alike who p p') (ns ns' : Array Notice) :
    Alike who { p with notices := ns } { p' with notices := ns' } :=
  ⟨h.bunny, h.size, h.puddle, h.trail⟩

theorem Alike.self (h : Alike who p p') :
    (p'.self? who).map Bunny.unscored = (p.self? who).map Bunny.unscored := by
  unfold self?
  split
  · exact h.bunny
  · rfl

/-- A bunny that is in one of two plays that are alike is in the other one. -/
theorem Alike.exists_bunny (h : Alike who p p') {b : Bunny} (hb : p.bunny? who = some b) :
    ∃ b', p'.bunny? who = some b' ∧ b'.unscored = b.unscored := by
  have hbunny := h.bunny
  rw [hb, Option.map_some] at hbunny
  exact Option.map_eq_some_iff.mp hbunny

theorem trail_of_unscored {b b' : Bunny} (h : b'.unscored = b.unscored) :
    (b'.x, b'.y, b'.facing, b'.moves) = (b.x, b.y, b.facing, b.moves) := by
  have hx : b'.unscored.x = b.unscored.x := by rw [h]
  have hy : b'.unscored.y = b.unscored.y := by rw [h]
  have hfacing : b'.unscored.facing = b.unscored.facing := by rw [h]
  have hmoves : b'.unscored.moves = b.unscored.moves := by rw [h]
  exact Prod.ext hx (Prod.ext hy (Prod.ext hfacing hmoves))

/-- The log of two plays that are alike goes on alike. -/
theorem Alike.trail_event (h : Alike who p p') {b b' : Bunny} (hb : b'.unscored = b.unscored)
    (kind kind' : EventKind) (message message' : String) :
    Event.trail who.label (p'.events.toList ++ [b'.event who.label kind' message']) =
      Event.trail who.label (p.events.toList ++ [b.event who.label kind message]) := by
  rw [Event.trail_append, Event.trail_append, Event.trail_event, Event.trail_event, h.trail,
    trail_of_unscored hb]

theorem Alike.record (h : Alike who p p') (kind : EventKind) (message : String) :
    Alike who (p.record who kind message) (p'.record who kind message) := by
  have hbunny := h.bunny
  cases hb : p.bunny? who with
  | none =>
    rw [hb, Option.map_none, Option.map_eq_none_iff] at hbunny
    rw [record_of_none p who kind message hb, record_of_none p' who kind message hbunny]
    exact h
  | some b =>
    obtain ⟨b', hb', hsame⟩ := h.exists_bunny hb
    refine ⟨?_, ?_, ?_, ?_⟩
    · rw [bunny?_record, bunny?_record, h.bunny]
    · rw [record_grid, record_grid, h.size]
    · intro x y
      rw [record_grid, record_grid]
      exact h.puddle x y
    · rw [record_log p who kind message hb, record_log p' who kind message hb']
      exact h.trail_event hsame ..

theorem Alike.mapBunny (h : Alike who p p') {f : Bunny → Bunny}
    (hf : ∀ b, (f b).unscored = (f b.unscored).unscored) :
    Alike who (p.mapBunny who f) (p'.mapBunny who f) := by
  have hmap (o : Option Bunny) : (o.map f).map Bunny.unscored =
      (o.map Bunny.unscored).map fun b => (f b).unscored := by
    cases o with
    | none => rfl
    | some b => exact congrArg some (hf b)
  refine ⟨?_, h.size, h.puddle, h.trail⟩
  rw [bunny?_mapBunny, bunny?_mapBunny, hmap, hmap, h.bunny]

theorem bunny?_land (rules : Rules) (p : Play) (who : Actor) (x y : Int) :
    (p.land rules who x y).bunny? who =
      (p.bunny? who).map (.landed rules (p.world.grid.cell x y) x y) := by
  simp [bunny?]

theorem bunny?_leave (p : Play) (who : Actor) :
    (p.leave who).bunny? who = (p.bunny? who).map fun b => { b with active := false } := by
  simp [bunny?]

theorem Alike.land (h : Alike who p p') {b : Bunny} (hb : p.bunny? who = some b) (x y : Int) :
    Alike who (p.land rules who x y) (p'.land rules who x y) := by
  obtain ⟨b', hb', hsame⟩ := h.exists_bunny hb
  have hland : (b'.landed rules (p'.world.grid.cell x y) x y).unscored =
      (b.landed rules (p.world.grid.cell x y) x y).unscored := by
    rw [Bunny.unscored_landed, Bunny.unscored_landed, hsame]
    simp only [h.puddle x y]
  obtain ⟨message, hlog⟩ := land_log rules p who hb x y
  obtain ⟨message', hlog'⟩ := land_log rules p' who hb' x y
  refine ⟨?_, ?_, ?_, ?_⟩
  · rw [bunny?_land, bunny?_land, hb, hb', Option.map_some, Option.map_some, Option.map_some,
      Option.map_some, hland]
  · rw [land_grid, land_grid, Grid.landed_size, Grid.landed_size, h.size]
  · intro x' y'
    rw [land_grid, land_grid, Grid.landed_puddle, Grid.landed_puddle]
    exact h.puddle x' y'
  · rw [hlog, hlog']
    exact h.trail_event hland ..

theorem Alike.leave (h : Alike who p p') {b : Bunny} (hb : p.bunny? who = some b) :
    Alike who (p.leave who) (p'.leave who) := by
  obtain ⟨b', hb', hsame⟩ := h.exists_bunny hb
  have hleave : Bunny.unscored { b' with active := false } =
      Bunny.unscored { b with active := false } :=
    congrArg (fun b : Bunny => { b with active := false }) hsame
  obtain ⟨message, hlog⟩ := leave_log p who hb
  obtain ⟨message', hlog'⟩ := leave_log p' who hb'
  refine ⟨?_, ?_, ?_, ?_⟩
  · rw [bunny?_leave, bunny?_leave, hb, hb', Option.map_some, Option.map_some, Option.map_some,
      Option.map_some, hleave]
  · rw [leave_grid, leave_grid, h.size]
  · intro x y
    rw [leave_grid, leave_grid]
    exact h.puddle x y
  · rw [hlog, hlog']
    exact h.trail_event hleave ..

theorem Alike.target (h : Alike who p p') {b b' : Bunny} (hb : p.bunny? who = some b)
    (hb' : p'.bunny? who = some b') (kind : Jump) (amount : Int) :
    b'.target kind amount = b.target kind amount := by
  have hsame := h.bunny
  rw [hb, hb', Option.map_some, Option.map_some, Option.some_inj] at hsame
  have htarget (b : Bunny) : b.target kind amount = b.unscored.target kind amount := rfl
  rw [htarget b', hsame, ← htarget b]

/-- An action does the same to a bunny in plays that are alike for it. -/
theorem alike_isCongruence (rules : Rules) (who : Actor) :
    IsCongruence rules who (Alike who) where
  eval := fun h e => Expr.eval_congr h.self e
  target := fun h hb hb' => h.target hb hb'
  contains := fun h => Grid.contains_congr h.size
  tell := Alike.tell
  record := Alike.record
  face := fun h _ => h.mapBunny fun _ => rfl
  store := fun h _ => h.mapBunny fun _ => rfl
  land := fun h hb => h.land hb
  leave := fun h hb => h.leave hb

end Alike

section Frame

variable {rules : Rules} {who other : Actor} {p q : Play}

/-- What another bunny does leaves all that a bunny's blocks can depend on. -/
theorem Change.alike_of_other (h : Change rules other p q) (ho : who.Apart other) :
    Alike who p q := by
  have hmodify (f : Bunny → Bunny) (hb : q.world.bunnies = p.world.bunnies.modify other.slot f) :
      q.bunny? who = p.bunny? who := by
    simp [bunny?, hb, ho.slot]
  rcases h.stays_or_lands with hstays | ⟨x, y, hact, hxy, rfl⟩
  · obtain ⟨f, -, hbunnies⟩ := hstays.bunnies
    obtain ⟨new, hlog, hnew⟩ := hstays.log
    have hnone : Event.trail who.label new = [] := by
      refine Event.trail_of_others fun e hmem => ?_
      rw [(hnew e hmem).1]
      exact ho.label
    refine ⟨by rw [hmodify f hbunnies], by rw [hstays.grid], fun x y => by rw [hstays.grid], ?_⟩
    rw [hlog, Event.trail_append, hnone, List.append_nil]
  · obtain ⟨b, hb, -⟩ := exists_bunny_of_not_halted (not_halted_of_canAct hact)
    obtain ⟨message, hlog⟩ := land_log rules p other hb x y
    have hnone : Event.trail who.label
        [(b.landed rules (p.world.grid.cell x y) x y).event other.label
          (p.world.grid.cell x y).kind.landing message] = [] := by
      refine Event.trail_of_others fun e hmem => ?_
      cases List.mem_singleton.mp hmem
      exact ho.label
    refine ⟨by rw [hmodify _ (land_bunnies ..)], ?_, ?_, ?_⟩
    · rw [land_grid, Grid.landed_size]
    · intro x' y'
      rw [land_grid, Grid.landed_puddle]
    · rw [hlog, Event.trail_append, hnone, List.append_nil]

theorem Changes.alike_of_other (h : Changes rules other p q) (ho : who.Apart other) :
    Alike who p q := by
  induction h with
  | refl => exact .refl who p
  | tail _ h ih => exact ih.trans (h.alike_of_other ho)

end Frame

end Play
end BunnyGrid
