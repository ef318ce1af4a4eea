import BunnyGrid.Proofs.Play.Actors
import BunnyGrid.Proofs.Play.Deed
import BunnyGrid.Proofs.Play.Placement

/-! The log is a full account: how a bunny stands can be read off the events that it left. -/
namespace BunnyGrid

namespace Event

/-- The events of the bunny at a place. -/
def ofSlot (events : List Event) (slot : Nat) : List Event := events.filter (·.agent = slot)

/-- Whether a bunny landed on a cell. -/
def isLanding (e : Event) : Bool :=
  match e.kind with
  | .move | .strawberry | .stone | .puddle => true
  | _ => false

def isPuddle (e : Event) : Bool := e.kind = .puddle

def isExit (e : Event) : Bool := e.kind = .exit

/-- A score after an event on a grid: a strawberry adds what its cell has, and a stone takes the
penalty, but not below zero. -/
def scored (rules : Rules) (grid : Grid) (score : Int) (e : Event) : Int :=
  match e.kind with
  | .strawberry => score + (grid.cell e.x e.y).value
  | .stone => max 0 (score - rules.stonePenalty)
  | _ => score

/-- An event tells how a bunny stands. -/
structure Shows (e : Event) (b : Bunny) : Prop where
  x : e.x = b.x
  y : e.y = b.y
  facing : e.facing = b.facing
  score : e.score = b.score
  moves : e.moves = b.moves

theorem shows_event (b : Bunny) (label : Int) (kind : EventKind) (message : String) :
    (b.event label kind message).Shows b := ⟨rfl, rfl, rfl, rfl, rfl⟩

theorem ofSlot_append_of_eq (events : List Event) {e : Event} {slot : Nat} (h : e.agent = slot) :
    ofSlot (events ++ [e]) slot = ofSlot events slot ++ [e] := by
  simp [ofSlot, h]

theorem ofSlot_append_of_ne (events : List Event) {e : Event} {slot : Nat} (h : e.agent ≠ slot) :
    ofSlot (events ++ [e]) slot = ofSlot events slot := by
  simp [ofSlot, h]

end Event

/-- What a bunny's own events say of it. -/
structure Account (rules : Rules) (grid : Grid) (own : List Event) (b : Bunny) : Prop where
  moves : b.moves = own.countP Event.isLanding + rules.puddleCost * own.countP Event.isPuddle
  score : b.score = own.foldl (Event.scored rules grid) 0
  last : ∀ e, own.getLast? = some e → e.Shows b
  /-- A bunny that has left the map logged that last, and never before. -/
  left : b.active = false → ∃ before e, own = before ++ [e] ∧ e.isExit = true ∧
    before.countP Event.isExit = 0
  stayed : b.active = true → own.countP Event.isExit = 0

section Account

variable {rules : Rules} {grid g : Grid} {own : List Event} {b b' : Bunny} {kind : EventKind}

theorem Account.ofStart (s : Start) : Account rules grid [] (.ofStart s) where
  moves := by simp [Bunny.ofStart]
  score := rfl
  last := by simp
  left := by simp [Bunny.ofStart]
  stayed := fun _ => rfl

/-- A strawberry that stands is the one that the board has. -/
def Grid.Keeps (grid g : Grid) : Prop :=
  ∀ x y, (g.cell x y).kind = .strawberry → g.cell x y = grid.cell x y ∧ 0 ≤ (g.cell x y).value

theorem Deed.moves_eq (h : Deed rules g b kind b') (label : Int) (message : String) :
    b'.moves = b.moves + (b'.event label kind message).isLanding.toNat +
      rules.puddleCost * (b'.event label kind message).isPuddle.toNat := by
  cases h with
  | turn | store | skip | leave => simp [Event.isLanding, Event.isPuddle, Bunny.event]
  | land x y =>
    unfold Bunny.landed
    cases (g.cell x y).kind <;>
      simp [Event.isLanding, Event.isPuddle, Bunny.event, CellKind.landing]

theorem Deed.score_eq (h : Deed rules g b kind b') (hg : grid.Keeps g) (hb : 0 ≤ b.score)
    (label : Int) (message : String) :
    b'.score = (b'.event label kind message).scored rules grid b.score := by
  cases h with
  | turn | store | skip | leave => rfl
  | land x y =>
    cases hk : (g.cell x y).kind with
    | strawberry =>
      obtain ⟨hcell, hvalue⟩ := hg x y hk
      have hgain : (b.landed rules (g.cell x y) x y).score = b.score + (g.cell x y).value := by
        simp only [Bunny.landed, hk]
        omega
      have htold : Event.scored rules grid b.score
          ((b.landed rules (g.cell x y) x y).event label .strawberry message) =
            b.score + (grid.cell x y).value := by
        simp [Event.scored, Bunny.event]
      rw [hgain, CellKind.landing, htold, hcell]
    | stone =>
      simp [Event.scored, Bunny.event, CellKind.landing, Bunny.landed, hk]
    | empty | puddle =>
      simp [Event.scored, Bunny.event, CellKind.landing, Bunny.landed, hk]

/-- A bunny leaves the map exactly by what the log calls an exit. -/
theorem Deed.active_eq (h : Deed rules g b kind b') (ha : b.active = true) (label : Int)
    (message : String) : b'.active = !(b'.event label kind message).isExit := by
  cases h with
  | turn | store | skip => simpa [Event.isExit, Bunny.event] using ha
  | leave => rfl
  | land x y =>
    rw [Bunny.landed_active, ha]
    cases (g.cell x y).kind <;> rfl

/-- A deed and the event that tells of it keep the account. -/
theorem Account.extend (h : Account rules grid own b) (ha : b.active = true)
    (hd : Deed rules g b kind b') (hg : grid.Keeps g) (hb : 0 ≤ b.score) (label : Int)
    (message : String) :
    Account rules grid (own ++ [b'.event label kind message]) b' := by
  have hmoves := hd.moves_eq label message
  have hscore := hd.score_eq hg hb label message
  have hactive := hd.active_eq ha label message
  have hno := h.stayed ha
  generalize he : b'.event label kind message = e at hmoves hscore hactive
  have hone (f : Event → Bool) : (own ++ [e]).countP f = own.countP f + (f e).toNat := by
    rw [List.countP_append, List.countP_singleton]
    cases f e <;> rfl
  constructor
  · rw [hone, hone, hmoves, h.moves]
    push_cast
    rw [Int.mul_add]
    omega
  · rw [List.foldl_append, ← h.score]
    exact hscore
  · intro last hlast
    have hsame : e = last := by simpa using hlast
    rw [← hsame, ← he]
    exact Event.shows_event b' label kind message
  · intro hgone
    refine ⟨own, e, rfl, ?_, hno⟩
    rw [hgone] at hactive
    simpa using hactive.symm
  · intro hhere
    have hexit : e.isExit = false := by
      rw [hhere] at hactive
      simpa using hactive.symm
    rw [hone, hno, hexit]
    rfl

/-- A bunny has left the map exactly if its last event is its only exit. -/
theorem Account.active_iff (h : Account rules grid own b) : b.active = false ↔
    (∃ e, own.getLast? = some e ∧ e.kind = .exit) ∧ own.countP Event.isExit = 1 := by
  constructor
  · intro hgone
    obtain ⟨before, e, rfl, hexit, hno⟩ := h.left hgone
    have hkind : e.kind = .exit := of_decide_eq_true hexit
    refine ⟨⟨e, by simp, hkind⟩, ?_⟩
    rw [List.countP_append, hno, List.countP_singleton, hexit]
    rfl
  · rintro ⟨-, hone⟩
    by_contra hhere
    have hno := h.stayed (by simpa using hhere)
    omega

end Account

namespace Play

/-- Every bunny's own events account for it. -/
structure Accounted (rules : Rules) (board : Board) (p : Play) : Prop where
  wellFormed : p.world.WellFormed board
  account : ∀ slot b, p.world.bunnies[slot]? = some b →
    Account rules board.grid (Event.ofSlot p.events.toList slot) b

variable {rules : Rules} {board : Board} {who : Actor} {p q : Play} {b : Bunny}

theorem keeps_of_wellFormed {w : World} (h : w.WellFormed board) (hb : board.WellFormed) :
    board.grid.Keeps w.grid := by
  intro x y hk
  have hvalue := (h.cell_wellFormed hb x y).strawberry hk
  refine ⟨?_, by omega⟩
  rcases h.cells x y with hsame | ⟨hempty, -⟩
  · exact hsame
  · rw [hempty] at hk
    cases hk

theorem Done.accounted (h : Done rules who p q b) (hp : p.Accounted rules board)
    (hb : board.WellFormed) (hwho : who.isDirect = true) (slot : Nat) (after : Bunny)
    (hq : q.world.bunnies[slot]? = some after) :
    Account rules board.grid (Event.ofSlot q.events.toList slot) after := by
  have hlabel : who.label = who.slot := of_decide_eq_true hwho
  obtain ⟨kind, b', hdeed, hbunnies, message, hlog⟩ := h.deed
  rw [hbunnies] at hq
  rw [hlog]
  by_cases hslot : who.slot = slot
  · subst hslot
    have hsame : b' = after := by
      obtain ⟨hlen, -⟩ := List.getElem?_eq_some_iff.mp h.bunny
      rw [List.getElem?_set_self hlen] at hq
      exact Option.some.inj hq
    subst after
    have hscore := hp.wellFormed.scores b (List.mem_of_getElem? h.bunny)
    have hkeeps := keeps_of_wellFormed hp.wellFormed hb
    rw [Event.ofSlot_append_of_eq _ hlabel]
    exact (hp.account _ b h.bunny).extend h.active hdeed hkeeps hscore who.label message
  · have hother : (b'.event who.label kind message).agent ≠ slot := by
      show who.label ≠ slot
      omega
    rw [List.getElem?_set_ne hslot] at hq
    rw [Event.ofSlot_append_of_ne _ hother]
    exact hp.account slot after hq

theorem StepBy.accounted (h : StepBy rules (·.isDirect = true) p q) (hp : p.Accounted rules board)
    (hb : board.WellFormed) : q.Accounted rules board := by
  refine ⟨h.step.wellFormed hp.wellFormed, ?_⟩
  cases h with
  | change hwho h =>
    rcases h.done with ⟨hbunnies, hevents⟩ | ⟨b, hdone⟩
    · rw [hbunnies, hevents]
      exact hp.account
    · exact hdone.accounted hp hb hwho
  | start | finish => exact hp.account

theorem StepsBy.accounted (h : StepsBy rules (·.isDirect = true) p q)
    (hp : p.Accounted rules board) (hb : board.WellFormed) : q.Accounted rules board := by
  induction h with
  | refl => exact hp
  | tail _ h ih => exact h.accounted ih hb

theorem ofBoard_accounted (rules : Rules) (hb : board.WellFormed) :
    Accounted rules board { world := .ofBoard board } := by
  refine ⟨World.ofBoard_wellFormed hb, fun slot b hbunny => ?_⟩
  obtain ⟨s, -, rfl⟩ := List.mem_map.mp (List.mem_of_getElem? hbunny)
  exact .ofStart s

end Play
end BunnyGrid
