import BunnyGrid.Proofs.Checked.Value
import BunnyGrid.Proofs.Play.Deed
import BunnyGrid.Proofs.Play.Step
import BunnyGrid.Proofs.World.Grid

/-! Play in which every bunny, every cell and every block is looked up where it has to be, and a
lookup that finds nothing fails. With its bunnies on the map no play fails: it is the play that the
unchecked definitions give. -/
namespace BunnyGrid

namespace Play.Checked

/-- The bunny at a place. -/
def bunny (p : Play) (slot : Nat) : Except Fault Bunny :=
  BunnyGrid.Checked.bunny p.world.bunnies slot

/-- Read the bunny at a place and write it back changed. -/
def update (p : Play) (slot : Nat) (f : Bunny → Bunny) : Except Fault Play := do
  let b ← bunny p slot
  if slot < p.world.bunnies.length then
    .ok { p with world := { p.world with bunnies := p.world.bunnies.set slot (f b) } }
  else .error (.noBunny slot)

/-- The cell in a column of a row. -/
def cell (p : Play) (x y : Int) : Except Fault Cell :=
  if 0 ≤ x ∧ 0 ≤ y then
    match p.world.grid.cell? x.toNat y.toNat with
    | some c => .ok c
    | none => .error (.offGrid x y)
  else .error (.offGrid x y)

def putCell (p : Play) (x y : Int) (c : Cell) : Except Fault Play :=
  if p.world.grid.contains x y then
    .ok { p with world := { p.world with grid := p.world.grid.put x y c } }
  else .error (.offGrid x y)

def record (p : Play) (slot : Nat) (kind : EventKind) (message : String) : Except Fault Play := do
  let b ← bunny p slot
  let p := { p with events := p.events.push (b.event slot kind message) }
  .ok (if message.isEmpty then p else (p.setMessage message).note (.said (slot + 1) message))

def canAct (p : Play) (slot : Nat) : Except Fault Bool :=
  if p.world.ended then .ok false
  else if slot < p.world.bunnies.length then do
    let b ← bunny p slot
    .ok b.active
  else .ok false

def halted (p : Play) (slot : Nat) : Except Fault Bool :=
  if p.world.ended then .ok true
  else do
    let b ← bunny p slot
    .ok !b.active

def turn (p : Play) (slot : Nat) (t : Turn) : Except Fault (Play × Bool) := do
  let acts ← canAct p slot
  if acts then
    let p ← update p slot fun b => { b with facing := b.facing.turned t.quarters }
    let p ← record p slot .turn ""
    .ok (p, true)
  else .ok (p, false)

def leave (p : Play) (slot : Nat) : Except Fault Play := do
  let p ← update p slot fun b => { b with active := false }
  let p ← record p slot .exit s!"Bunny {(slot : Int) + 1} jumped off the map!"
  .ok <|
    if p.world.anyActive then p
    else { p with world := { p.world with ended := true, status := .boundaryExit } }

def land (rules : Rules) (p : Play) (slot : Nat) (x y : Int) : Except Fault Play := do
  let p ← update p slot fun b => { b with x, y, moves := b.moves + 1 }
  let number := (slot : Int) + 1
  let c ← cell p x y
  match c.kind with
  | .strawberry =>
    let p ← update p slot fun b => { b with score := max 0 (b.score + c.value) }
    let p ← putCell p x y {}
    record p slot .strawberry s!"Bunny {number} picked {c.value} strawberries"
  | .stone =>
    let p ← update p slot fun b => { b with score := max 0 (b.score - rules.stonePenalty) }
    record p slot .stone s!"Bunny {number} hit a stone! -{rules.stonePenalty} strawberries"
  | .puddle =>
    let p ← update p slot fun b => { b with moves := b.moves + rules.puddleCost }
    record p slot .puddle s!"Bunny {number} stepped in a puddle! +{rules.puddleCost} moves"
  | .empty => record p slot .move ""

def jump (rules : Rules) (p : Play) (slot : Nat) (kind : Jump) (amount : Int) :
    Except Fault (Play × Bool) := do
  let acts ← canAct p slot
  if acts then
    if amount < 1 then
      let p ← record (p.note (.malformedJump kind amount)) slot .malformed ""
      .ok (p, false)
    else
      let b ← bunny p slot
      let place := b.target kind amount
      if p.world.grid.contains place.1 place.2 then
        let p ← land rules p slot place.1 place.2
        .ok (p, true)
      else
        let p ← leave p slot
        .ok (p, false)
  else .ok (p, false)

/-- Count one block or loop round, unless the bunny's program has to stop. -/
def enter (rules : Rules) (p : Play) (slot : Nat) : Except Fault (Play × Bool) := do
  let stops ← halted p slot
  .ok (if stops then (p, false) else p.tick rules)

def eval (p : Play) (slot : Nat) (e : Expr) : Except Fault Scalar :=
  BunnyGrid.Checked.eval p.world.bunnies slot e

def amount (p : Play) (slot : Nat) (a : Amount) : Except Fault Int :=
  BunnyGrid.Checked.amount p.world.bunnies slot a

def test (p : Play) (slot : Nat) (condition : Expr) : Except Fault (Play × Bool) := do
  let v ← eval p slot condition
  .ok (p.noteAll (condition.notices p.world.bunnies[slot]?), v.truthy)

def perform (rules : Rules) (slot : Nat) (p : Play) : Action → Except Fault Play
  | .jump kind count => do
    let n ← amount p slot count
    let (p, _) ← jump rules (p.noteAll (count.notices p.world.bunnies[slot]?)) slot kind n
    .ok p
  | .turn direction => do
    let (p, _) ← turn p slot direction
    .ok p
  | .setVar name value => do
    let v ← eval p slot value
    let p ← update (p.noteAll (value.notices p.world.bunnies[slot]?)) slot fun b =>
      { b with vars := b.vars.set name v }
    record p slot .variable ""
  | .changeVar name delta => do
    let d ← eval p slot delta
    let b ← bunny p slot
    let sum ← BunnyGrid.Checked.arith .add (b.vars.get name) d
    let p ← update (p.noteAll (delta.notices p.world.bunnies[slot]?)) slot fun b =>
      { b with vars := b.vars.set name (.number sum) }
    record p slot .variable ""

def rounds (round : Play → Except Fault (Play × Bool)) : Nat → Play → Except Fault Play
  | 0, p => .ok p
  | n + 1, p => do
    let (p, goes) ← round p
    if goes then rounds round n p else .ok p

mutual

def exec (rules : Rules) (slot : Nat) : Block → Play → Except Fault Play
  | .act action, p => do
    let stops ← halted p slot
    if stops then .ok p else perform rules slot p action
  | .branch condition yes no, p => do
    let stops ← halted p slot
    if stops then .ok p
    else
      let (p, holds) ← test p slot condition
      if holds then execAll rules slot yes p else execAll rules slot no p
  | .whileLoop condition body, p => do
    let stops ← halted p slot
    if stops then .ok p
    else
      let round (p : Play) : Except Fault (Play × Bool) := do
        let (p, holds) ← test p slot condition
        if holds then
          let (p, goes) ← enter rules p slot
          if goes then
            let p ← execAll rules slot body p
            .ok (p, true)
          else .ok (p, false)
        else .ok (p, false)
      rounds round (p.ticksLeft rules + 1) p
  | .repeatLoop times body, p => do
    let stops ← halted p slot
    if stops then .ok p
    else
      let n ← amount p slot times
      let round (p : Play) : Except Fault (Play × Bool) := do
        let (p, goes) ← enter rules p slot
        if goes then
          let p ← execAll rules slot body p
          .ok (p, true)
        else .ok (p, false)
      rounds round n.toNat (p.noteAll (times.notices p.world.bunnies[slot]?))
  | .unknown kind raw, p => do
    let stops ← halted p slot
    if stops then .ok p else record (p.note (.malformedBlock kind raw)) slot .malformed ""

def execAll (rules : Rules) (slot : Nat) : List Block → Play → Except Fault Play
  | [], p => .ok p
  | b :: rest, p => do
    let (p, goes) ← enter rules p slot
    if goes then
      let p ← exec rules slot b p
      execAll rules slot rest p
    else .ok p

end

section Agrees

variable {rules : Rules} {p : Play} {slot : Nat}

theorem ok_bind {ε α β : Type} (a : α) (f : α → Except ε β) : (Except.ok a >>= f) = f a := rfl

/-- The bunny at a place is there. -/
abbrev Has (p : Play) (slot : Nat) : Prop := slot < p.world.bunnies.length

theorem Has.congr {q : Play} (h : Has p slot)
    (hq : q.world.bunnies.length = p.world.bunnies.length) : Has q slot := by
  rw [Has, hq]
  exact h

theorem Has.exists_bunny (h : Has p slot) : ∃ b, p.bunny? (.ofSlot slot) = some b :=
  ⟨_, List.getElem?_eq_getElem h⟩

theorem Has.mapBunny (h : Has p slot) (who : Actor) (f : Bunny → Bunny) :
    Has (p.mapBunny who f) slot := h.congr (by simp)

theorem Has.noteAll (h : Has p slot) (ns : List Notice) : Has (p.noteAll ns) slot := h

theorem self?_ofSlot (p : Play) (slot : Nat) :
    p.self? (.ofSlot slot) = p.world.bunnies[slot]? := by
  unfold self?
  rw [if_pos (Actor.isDirect_ofSlot slot)]
  rfl

theorem bunny_eq {b : Bunny} (h : p.bunny? (.ofSlot slot) = some b) : bunny p slot = .ok b :=
  BunnyGrid.Checked.bunny_eq h

theorem update_eq (h : Has p slot) (f : Bunny → Bunny) :
    update p slot f = .ok (p.mapBunny (.ofSlot slot) f) := by
  obtain ⟨b, hb⟩ := h.exists_bunny
  have hset : p.world.bunnies.modify slot f = p.world.bunnies.set slot (f b) :=
    bunnies_modify hb f
  unfold update
  rw [bunny_eq hb, ok_bind, if_pos h, ← hset]
  rfl

/-- Only what is done to the bunny at the place counts. -/
theorem mapBunny_congr {b : Bunny} (h : p.bunny? (.ofSlot slot) = some b) {f g : Bunny → Bunny}
    (hfg : f b = g b) : p.mapBunny (.ofSlot slot) f = p.mapBunny (.ofSlot slot) g := by
  have hset (f : Bunny → Bunny) :
      p.world.bunnies.modify slot f = p.world.bunnies.set slot (f b) := bunnies_modify h f
  unfold Play.mapBunny World.mapBunny
  show { p with world := { p.world with bunnies := p.world.bunnies.modify slot f } } =
    { p with world := { p.world with bunnies := p.world.bunnies.modify slot g } }
  rw [hset f, hset g, hfg]

theorem record_eq (h : Has p slot) (kind : EventKind) (message : String) :
    record p slot kind message = .ok (p.record (.ofSlot slot) kind message) := by
  obtain ⟨b, hb⟩ := h.exists_bunny
  unfold record Play.record
  rw [bunny_eq hb, hb]
  rfl

theorem cell_eq {x y : Int} (h : p.world.grid.contains x y = true) :
    cell p x y = .ok (p.world.grid.cell x y) := by
  have hbounds := Grid.contains_iff.mp h
  have hx : x.toNat < p.world.grid.size := by omega
  have hy : y.toNat < p.world.grid.size := by omega
  have hcell : p.world.grid.cell? x.toNat y.toNat = some (p.world.grid.cell x y) := by
    rw [Grid.cell_eq_getElem h hx hy]
    simp [Grid.cell?, hx, hy]
  unfold cell
  rw [if_pos ⟨hbounds.1, hbounds.2.2.1⟩, hcell]

theorem putCell_eq {x y : Int} (h : p.world.grid.contains x y = true) (c : Cell) :
    putCell p x y c =
      .ok { p with world := { p.world with grid := p.world.grid.put x y c } } := if_pos h

theorem canAct_eq (p : Play) (slot : Nat) : canAct p slot = .ok (p.canAct (.ofSlot slot)) := by
  unfold canAct Play.canAct
  rw [Actor.isDirect_ofSlot]
  cases p.world.ended with
  | true => rfl
  | false =>
    rw [if_neg Bool.false_ne_true]
    by_cases h : Has p slot
    · obtain ⟨b, hb⟩ := h.exists_bunny
      rw [if_pos h, bunny_eq hb, hb]
      rfl
    · have hnone : p.bunny? (.ofSlot slot) = none :=
        List.getElem?_eq_none_iff.mpr (Nat.not_lt.mp h)
      rw [if_neg h, hnone]
      rfl

theorem halted_eq (h : Has p slot) : halted p slot = .ok (p.halted (.ofSlot slot)) := by
  obtain ⟨b, hb⟩ := h.exists_bunny
  unfold halted Play.halted
  rw [bunny_eq hb, hb]
  cases p.world.ended <;> rfl

theorem turn_eq (h : Has p slot) (t : Turn) : turn p slot t = .ok (p.turn (.ofSlot slot) t) := by
  unfold turn Play.turn
  rw [canAct_eq, ok_bind]
  split
  · rw [update_eq h, ok_bind, record_eq (h.mapBunny ..)]
    rfl
  · rfl

theorem leave_eq (h : Has p slot) : leave p slot = .ok (p.leave (.ofSlot slot)) := by
  unfold leave Play.leave
  rw [update_eq h, ok_bind, record_eq (h.mapBunny ..)]
  rfl

theorem land_eq (h : Has p slot) {x y : Int} (hxy : p.world.grid.contains x y = true) :
    land rules p slot x y = .ok (p.land rules (.ofSlot slot) x y) := by
  have hmoved (f : Bunny → Bunny) : Has (p.mapBunny (.ofSlot slot) f) slot := h.mapBunny _ f
  have hcell (f : Bunny → Bunny) :
      cell (p.mapBunny (.ofSlot slot) f) x y = .ok (p.world.grid.cell x y) := cell_eq hxy
  unfold land Play.land
  rw [update_eq h, ok_bind]
  dsimp only [mapBunny_world, World.mapBunny_grid]
  rw [hcell, ok_bind]
  cases (p.world.grid.cell x y).kind with
  | strawberry =>
    dsimp only
    rw [update_eq (hmoved _), ok_bind, putCell_eq, ok_bind, record_eq]
    · rfl
    · exact (hmoved _).mapBunny ..
    · exact hxy
  | stone | puddle =>
    dsimp only
    rw [update_eq (hmoved _), ok_bind]
    exact record_eq ((hmoved _).mapBunny ..) _ _
  | empty => exact record_eq (hmoved _) _ _

theorem jump_eq (h : Has p slot) (kind : Jump) (amount : Int) :
    jump rules p slot kind amount = .ok (p.jump rules (.ofSlot slot) kind amount) := by
  obtain ⟨b, hb⟩ := h.exists_bunny
  unfold jump Play.jump
  rw [canAct_eq, ok_bind]
  split
  case isFalse => rfl
  case isTrue =>
    split
    case isTrue =>
      have hnote : Has (p.note (.malformedJump kind amount)) slot := h
      rw [record_eq hnote]
      rfl
    case isFalse =>
      rw [bunny_eq hb, hb, ok_bind]
      dsimp only
      split
      case isTrue hxy =>
        rw [land_eq h hxy]
        rfl
      case isFalse =>
        rw [leave_eq h]
        rfl

theorem enter_eq (h : Has p slot) : enter rules p slot = .ok (p.enter rules (.ofSlot slot)) := by
  unfold enter Play.enter
  rw [halted_eq h]
  rfl

theorem eval_eq (p : Play) (slot : Nat) (e : Expr) :
    eval p slot e = .ok (e.eval (p.self? (.ofSlot slot))) := by
  rw [self?_ofSlot]
  exact BunnyGrid.Checked.eval_eq _ _ e

theorem amount_eq (p : Play) (slot : Nat) (a : Amount) :
    amount p slot a = .ok (a.eval (p.self? (.ofSlot slot))) := by
  rw [self?_ofSlot]
  exact BunnyGrid.Checked.amount_eq _ _ a

theorem test_eq (p : Play) (slot : Nat) (condition : Expr) :
    test p slot condition = .ok (p.test (.ofSlot slot) condition) := by
  unfold test Play.test
  rw [eval_eq, self?_ofSlot]
  rfl

/-- What a bunny does never fails. -/
theorem perform_eq (h : Has p slot) (a : Action) :
    perform rules slot p a = .ok (p.perform rules (.ofSlot slot) a) := by
  cases a with
  | jump kind count =>
    rw [perform, Play.perform, amount_eq, ok_bind, jump_eq (h.noteAll _), self?_ofSlot]
    rfl
  | turn direction =>
    rw [perform, Play.perform, turn_eq h]
    rfl
  | setVar name value =>
    rw [perform, Play.perform, eval_eq, ok_bind, update_eq (h.noteAll _), ok_bind,
      record_eq ((h.noteAll _).mapBunny ..), self?_ofSlot]
  | changeVar name delta =>
    obtain ⟨b, hb⟩ := h.exists_bunny
    rw [perform, Play.perform, eval_eq, ok_bind, bunny_eq hb, ok_bind,
      BunnyGrid.Checked.arith_eq, ok_bind, update_eq (h.noteAll _), ok_bind,
      record_eq ((h.noteAll _).mapBunny ..), self?_ofSlot]
    have htold : (p.noteAll (delta.notices p.world.bunnies[slot]?)).bunny? (.ofSlot slot) =
        some b := hb
    rw [mapBunny_congr htold]
    rfl

theorem Has.changes {who : Actor} {q : Play} (h : Has p slot) (hc : Changes rules who p q) :
    Has q slot := h.congr hc.course.bunnies_length

theorem Has.test {who : Actor} {q : Play} {condition : Expr} {flag : Bool} (h : Has p slot)
    (ht : p.test who condition = (q, flag)) : Has q slot := by
  cases ht
  exact h

/-- A loop fails in no round if a round of it never does. -/
theorem rounds_eq {round' : Play → Except Fault (Play × Bool)} {round : Play → Play × Bool}
    (hround : ∀ q, Has q slot → round' q = .ok (round q) ∧ Has (round q).1 slot) (n : Nat)
    {p : Play} (h : Has p slot) : rounds round' n p = .ok (Play.rounds round n p) := by
  induction n generalizing p with
  | zero => rfl
  | succ n ih =>
    obtain ⟨heq, hkept⟩ := hround p h
    rw [rounds, Play.rounds, heq, ok_bind]
    rcases hr : round p with ⟨q, _ | _⟩
    · rfl
    · rw [hr] at hkept
      exact ih hkept

section Loop

variable {body : List Block}
  (hbody : ∀ q, Has q slot → execAll rules slot body q =
    .ok (Play.execAll rules (.ofSlot slot) body q))

include hbody

/-- A round of a loop whose body does not fail. -/
theorem body_eq (h : Has p slot) :
    (do
      let (p, goes) ← enter rules p slot
      if goes then
        let p ← execAll rules slot body p
        .ok (p, true)
      else .ok (p, false) : Except Fault (Play × Bool)) =
    .ok (match p.enter rules (.ofSlot slot) with
      | (p, goes) => if goes then (Play.execAll rules (.ofSlot slot) body p, true)
        else (p, false)) ∧
    Has (match p.enter rules (.ofSlot slot) with
      | (p, goes) => if goes then (Play.execAll rules (.ofSlot slot) body p, true)
        else (p, false)).1 slot := by
  rw [enter_eq h, ok_bind]
  rcases he : p.enter rules (.ofSlot slot) with ⟨q, _ | _⟩
  · exact ⟨rfl, h.changes (changes_of_enter he)⟩
  · have hq : Has q slot := h.changes (changes_of_enter he)
    dsimp only
    rw [hbody q hq]
    exact ⟨rfl, hq.changes (execAll_runs body q).changes⟩

end Loop

mutual

/-- A block of a bunny that is there never fails. -/
theorem exec_eq (b : Block) {p : Play} (h : Has p slot) :
    exec rules slot b p = .ok (Play.exec rules (.ofSlot slot) b p) := by
  cases b with
  | act a =>
    rw [exec, Play.exec, halted_eq h, ok_bind]
    split
    · rfl
    · exact perform_eq h a
  | branch condition yes no =>
    rw [exec, Play.exec, halted_eq h, ok_bind]
    split
    · rfl
    · rw [test_eq, ok_bind]
      rcases ht : p.test (.ofSlot slot) condition with ⟨q, _ | _⟩
      · exact execAll_eq no (h.test ht)
      · exact execAll_eq yes (h.test ht)
  | whileLoop condition body =>
    rw [exec, Play.exec, halted_eq h, ok_bind]
    split
    · rfl
    · apply rounds_eq _ _ h
      intro q hq
      rw [test_eq, ok_bind]
      rcases ht : q.test (.ofSlot slot) condition with ⟨r, _ | _⟩
      · exact ⟨rfl, hq.test ht⟩
      · exact body_eq (fun _ hr => execAll_eq body hr) (hq.test ht)
  | repeatLoop times body =>
    rw [exec, Play.exec, halted_eq h, ok_bind]
    split
    · rfl
    · rw [amount_eq, ok_bind, self?_ofSlot]
      apply rounds_eq _ _ (h.noteAll _)
      intro q hq
      exact body_eq (fun _ hr => execAll_eq body hr) hq
  | unknown kind raw =>
    have hnote : Has (p.note (.malformedBlock kind raw)) slot := h
    rw [exec, Play.exec, halted_eq h, ok_bind]
    split
    · rfl
    · exact record_eq hnote _ _

/-- Blocks of a bunny that is there never fail. -/
theorem execAll_eq (bs : List Block) {p : Play} (h : Has p slot) :
    execAll rules slot bs p = .ok (Play.execAll rules (.ofSlot slot) bs p) := by
  cases bs with
  | nil => rfl
  | cons b rest =>
    rw [execAll, Play.execAll, enter_eq h, ok_bind]
    rcases he : p.enter rules (.ofSlot slot) with ⟨q, _ | _⟩
    · rfl
    · have hq : Has q slot := h.changes (changes_of_enter he)
      dsimp only
      rw [if_pos rfl, exec_eq b hq, ok_bind]
      exact execAll_eq rest (hq.changes (exec_runs b q).changes)

end

end Agrees

end Play.Checked
end BunnyGrid
