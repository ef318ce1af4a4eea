import BunnyGrid.Proofs.Play.Alike
import BunnyGrid.Proofs.Play.Order
import BunnyGrid.Proofs.Program.Symmetry

/-! Plays on the image of a board. Whatever a bunny does commutes with every symmetry, if no
expression reads a coordinate. -/
namespace BunnyGrid

namespace Play

/-- The cell at a place becomes empty. -/
def clear (p : Play) (c : Int × Int) : Play :=
  { p with world := { p.world with grid := p.world.grid.put c.1 c.2 {} } }

variable {rules : Rules} {who : Actor} {p q : Play}

theorem Change.grid_size (h : Change rules who p q) : q.world.grid.size = p.world.grid.size := by
  cases h with
  | land _ x y _ => rw [land_grid, Grid.landed_size]
  | tell => rfl
  | turn | store | skip | leave | tick => simp

theorem Step.grid_size (h : Step rules p q) : q.world.grid.size = p.world.grid.size := by
  cases h with
  | change h => exact h.grid_size
  | start | finish => rfl

/-- The grid keeps its size. -/
theorem Steps.grid_size (h : Steps rules p q) : q.world.grid.size = p.world.grid.size := by
  induction h with
  | refl => rfl
  | tail _ h ih => exact h.grid_size.trans ih

end Play

namespace Symmetry
open Play

variable (σ : Symmetry)

/-- A malformed jump is told of as the jump that it is in the image of the program. -/
def notice : Notice → Notice
  | .malformedJump kind amount => .malformedJump (σ.jump kind) amount
  | n => n

def play (p : Play) : Play where
  world := σ.world p.world
  events := p.events.map (σ.event p.world.grid.size)
  notices := p.notices.map σ.notice

variable {rules : Rules} {p : Play} (who : Actor)

section Parts

theorem bunny?_play : (σ.play p).bunny? who = (p.bunny? who).map (σ.bunny p.world.grid.size) :=
  List.getElem?_map

theorem vars_play : ((σ.play p).self? who).map (·.vars) = (p.self? who).map (·.vars) := by
  unfold self?
  split
  · rw [σ.bunny?_play, Option.map_map]
    rfl
  · rfl

theorem any_active_play :
    ((σ.play p).bunny? who).any (·.active) = (p.bunny? who).any (·.active) := by
  rw [σ.bunny?_play, Option.any_map]
  rfl

theorem halted_play : (σ.play p).halted who = p.halted who := by
  unfold halted
  rw [σ.any_active_play]
  rfl

theorem canAct_play : (σ.play p).canAct who = p.canAct who := by
  unfold canAct
  rw [σ.any_active_play]
  rfl

theorem note_play (n : Notice) : (σ.play p).note (σ.notice n) = σ.play (p.note n) := by
  unfold note play
  rw [Array.map_push]

theorem noteAll_play {ns : List Notice} (h : ns.map σ.notice = ns) :
    (σ.play p).noteAll ns = σ.play (p.noteAll ns) := by
  have hmap : (p.notices ++ ns).map σ.notice = p.notices.map σ.notice ++ ns := by
    apply Array.ext'
    simp [h]
  unfold noteAll play
  rw [hmap]

theorem mapBunny_play {f f' : Bunny → Bunny}
    (h : ∀ b, f' (σ.bunny p.world.grid.size b) = σ.bunny p.world.grid.size (f b)) :
    (σ.play p).mapBunny who f' = σ.play (p.mapBunny who f) := by
  have hbunnies := modify_map h p.world.bunnies who.slot
  unfold mapBunny World.mapBunny play world
  dsimp only
  rw [hbunnies]

theorem record_play (kind : EventKind) (message : String) :
    (σ.play p).record who kind message = σ.play (p.record who kind message) := by
  unfold record
  rw [σ.bunny?_play]
  cases p.bunny? who with
  | none => rfl
  | some b =>
    let event := b.event who.label kind message
    have hlog : (σ.play p).events.push (σ.event p.world.grid.size event) =
        (p.events.push event).map (σ.event p.world.grid.size) := by
      rw [Array.map_push]
      rfl
    have hplay : { σ.play p with
          events := (σ.play p).events.push (σ.event p.world.grid.size event) } =
        σ.play { p with events := p.events.push event } := by
      rw [hlog]
      rfl
    dsimp only [Option.map_some]
    split
    · exact hplay
    · rw [← note_play]
      exact congrArg (fun q : Play => (q.setMessage message).note _) hplay

end Parts

section Moves

theorem turn_play (t : Turn) :
    (σ.play p).turn who (σ.turn t) = Prod.map σ.play id (p.turn who t) := by
  have hface : (σ.play p).mapBunny who
        (fun b => { b with facing := b.facing.turned (σ.turn t).quarters }) =
      σ.play (p.mapBunny who fun b => { b with facing := b.facing.turned t.quarters }) := by
    apply σ.mapBunny_play
    intro b
    simp only [bunny, σ.turned]
  unfold Play.turn
  rw [σ.canAct_play]
  split
  · dsimp only [Prod.map]
    rw [hface, σ.record_play]
    rfl
  · rfl

theorem leave_play : (σ.play p).leave who = σ.play (p.leave who) := by
  have hgone : (σ.play p).mapBunny who (fun b => { b with active := false }) =
      σ.play (p.mapBunny who fun b => { b with active := false }) :=
    σ.mapBunny_play who fun _ => rfl
  have hany (q : Play) : (σ.play q).world.anyActive = q.world.anyActive := by
    unfold World.anyActive play world
    rw [List.any_map]
    rfl
  unfold leave
  dsimp only
  rw [hgone, σ.record_play, hany]
  split <;> rfl

theorem clear_play {c : Int × Int} (h : p.world.grid.contains c.1 c.2 = true) :
    (σ.play p).clear (σ.place p.world.grid.size c) = σ.play (p.clear c) := by
  have hput := σ.put_grid p.world.grid c h {}
  unfold clear play world
  dsimp only
  rw [hput]
  simp only [Grid.put_size]

/-- Landing on the place to which a place is moved. -/
theorem land_play {c : Int × Int} (h : p.world.grid.contains c.1 c.2 = true) :
    let c' := σ.place p.world.grid.size c
    (σ.play p).land rules who c'.1 c'.2 = σ.play (p.land rules who c.1 c.2) := by
  intro c'
  let moved := p.mapBunny who fun b => { b with x := c.1, y := c.2, moves := b.moves + 1 }
  have hmoved : (σ.play p).mapBunny who
      (fun b => { b with x := c'.1, y := c'.2, moves := b.moves + 1 }) = σ.play moved :=
    σ.mapBunny_play who fun _ => rfl
  have hcell : (σ.play moved).world.grid.cell c'.1 c'.2 = moved.world.grid.cell c.1 c.2 :=
    σ.cell_grid p.world.grid c
  unfold Play.land
  dsimp only
  rw [hmoved, hcell]
  cases (moved.world.grid.cell c.1 c.2).kind with
  | empty => exact σ.record_play ..
  | stone | puddle =>
    dsimp only
    rw [← σ.record_play]
    exact congrArg (Play.record · who _ _) (σ.mapBunny_play who fun _ => rfl)
  | strawberry =>
    let feed (b : Bunny) : Bunny :=
      { b with score := max 0 (b.score + (moved.world.grid.cell c.1 c.2).value) }
    have hfed : (σ.play moved).mapBunny who feed = σ.play (moved.mapBunny who feed) :=
      σ.mapBunny_play who fun _ => rfl
    have hcleared : ((σ.play moved).mapBunny who feed).clear c' =
        σ.play ((moved.mapBunny who feed).clear c) := by
      rw [hfed]
      exact σ.clear_play (p := moved.mapBunny who feed) h
    dsimp only
    rw [← σ.record_play]
    exact congrArg (Play.record · who _ _) hcleared

theorem jump_play (kind : Jump) (amount : Int) :
    Play.jump rules (σ.play p) who (σ.jump kind) amount =
      Prod.map σ.play id (Play.jump rules p who kind amount) := by
  unfold Play.jump
  rw [σ.canAct_play, σ.bunny?_play]
  split
  case isFalse => rfl
  case isTrue =>
    split
    · have hnote : (σ.play p).note (.malformedJump (σ.jump kind) amount) =
          σ.play (p.note (.malformedJump kind amount)) := σ.note_play (.malformedJump kind amount)
      rw [hnote, σ.record_play]
      rfl
    · cases p.bunny? who with
      | none => rfl
      | some b =>
        have hinside : (σ.play p).world.grid.contains
              (σ.place p.world.grid.size (b.target kind amount)).1
              (σ.place p.world.grid.size (b.target kind amount)).2 =
            p.world.grid.contains (b.target kind amount).1 (b.target kind amount).2 :=
          σ.contains_grid p.world.grid (b.target kind amount)
        dsimp only [Option.map_some]
        rw [σ.target_bunny, hinside]
        split
        case isTrue h =>
          rw [σ.land_play who h]
          rfl
        case isFalse =>
          rw [σ.leave_play]
          rfl

theorem tick_play : (σ.play p).tick rules = Prod.map σ.play id (p.tick rules) := by
  unfold tick
  dsimp only
  have hsteps : (σ.play p).world.steps = p.world.steps := rfl
  rw [hsteps]
  split
  · rfl
  · dsimp only [Prod.map]
    rw [← σ.note_play]
    rfl

theorem enter_play : (σ.play p).enter rules who = Prod.map σ.play id (p.enter rules who) := by
  unfold enter
  rw [σ.halted_play, σ.tick_play]
  split <;> rfl

end Moves

section Evaluation

/-- Evaluation tells of no jump. -/
theorem notice_notices (e : Expr) (self : Option Bunny) :
    (e.notices self).map σ.notice = e.notices self := by
  induction e with
  | literal | coord | var | unknown => rfl
  | arith _ l r ihl ihr | logic _ l r ihl ihr =>
    rw [Expr.notices, List.map_append, ihl, ihr]
  | compare _ l r ihl ihr =>
    rw [Expr.notices, List.map_append, List.map_append, ihl, ihr]
    split <;> rfl
  | not e ih => exact ih

theorem notice_amount (amount : Amount) (self : Option Bunny) :
    (amount.notices self).map σ.notice = amount.notices self := by
  cases amount with
  | plain n => rfl
  | expr e => exact σ.notice_notices e self

theorem told_play {e : Expr} (he : e.isCoordFree = true) :
    (σ.play p).noteAll (e.notices ((σ.play p).self? who)) =
      σ.play (p.noteAll (e.notices (p.self? who))) := by
  rw [Expr.notices_of_isCoordFree (σ.vars_play who) he]
  exact σ.noteAll_play (σ.notice_notices e _)

theorem test_play {condition : Expr} (h : condition.isCoordFree = true) :
    (σ.play p).test who condition = Prod.map σ.play id (p.test who condition) := by
  unfold Play.test
  dsimp only [Prod.map]
  rw [σ.told_play who h, Expr.eval_of_isCoordFree (σ.vars_play who) h]
  rfl

/-- An action on the image of a board does the image of what it does. -/
theorem perform_play {a : Action} (h : a.isCoordFree = true) :
    (σ.play p).perform rules who (σ.action a) = σ.play (p.perform rules who a) := by
  cases a with
  | jump kind amount =>
    have hnotices := Amount.notices_of_isCoordFree (σ.vars_play (p := p) who) h
    have hvalue := Amount.eval_of_isCoordFree (σ.vars_play (p := p) who) h
    have htold := σ.noteAll_play (p := p) (σ.notice_amount amount (p.self? who))
    simp only [action, perform]
    rw [hnotices, hvalue, htold, σ.jump_play]
    rfl
  | turn t =>
    simp only [action, perform]
    rw [σ.turn_play]
    rfl
  | setVar name value =>
    simp only [action, perform]
    rw [σ.told_play who h, Expr.eval_of_isCoordFree (σ.vars_play who) h, ← σ.record_play]
    exact congrArg (Play.record · who _ _) (σ.mapBunny_play who fun _ => rfl)
  | changeVar name delta =>
    simp only [action, perform]
    rw [σ.told_play who h, Expr.eval_of_isCoordFree (σ.vars_play who) h, ← σ.record_play]
    exact congrArg (Play.record · who _ _) (σ.mapBunny_play who fun _ => rfl)

end Evaluation

section Exec

theorem rounds_play {round round' : Play → Play × Bool}
    (h : ∀ p, round' (σ.play p) = Prod.map σ.play id (round p)) (n : Nat) (p : Play) :
    rounds round' n (σ.play p) = σ.play (rounds round n p) := by
  induction n generalizing p with
  | zero => rfl
  | succ n ih =>
    rw [rounds, rounds, h]
    rcases round p with ⟨q, _ | _⟩
    · rfl
    · exact ih q

theorem round_play {body body' : Play → Play} (h : ∀ p, body' (σ.play p) = σ.play (body p))
    (p : Play) :
    (let (q, goes) := (σ.play p).enter rules who
      if goes then (body' q, true) else (q, false)) =
      Prod.map σ.play id
        (let (q, goes) := p.enter rules who
          if goes then (body q, true) else (q, false)) := by
  rw [σ.enter_play]
  rcases p.enter rules who with ⟨q, _ | _⟩
  · rfl
  · exact congrArg (·, true) (h q)

mutual

/-- A block on the image of a board does the image of what it does. -/
theorem exec_play (b : Block) (h : b.isCoordFree = true) (p : Play) :
    exec rules who (σ.block b) (σ.play p) = σ.play (exec rules who b p) := by
  cases b with
  | act a =>
    rw [block, exec, exec, σ.halted_play]
    split
    · rfl
    · exact σ.perform_play who h
  | branch c yes no =>
    obtain ⟨hc, hbodies⟩ := Bool.and_eq_true_iff.mp h
    obtain ⟨hyes, hno⟩ := Bool.and_eq_true_iff.mp hbodies
    rw [block, exec, exec, σ.halted_play, σ.test_play who hc]
    split
    · rfl
    · rcases p.test who c with ⟨q, _ | _⟩
      · exact execAll_play no hno q
      · exact execAll_play yes hyes q
  | whileLoop c body =>
    obtain ⟨hc, hbody⟩ := Bool.and_eq_true_iff.mp h
    rw [block, exec, exec, σ.halted_play]
    split
    · rfl
    · -- The image is granted as many rounds, since it has counted as many.
      refine σ.rounds_play (fun p => ?_) (p.ticksLeft rules + 1) p
      rw [σ.test_play who hc]
      rcases p.test who c with ⟨q, _ | _⟩
      · rfl
      · exact σ.round_play who (execAll_play body hbody) q
  | repeatLoop times body =>
    obtain ⟨htimes, hbody⟩ := Bool.and_eq_true_iff.mp h
    have htold : (σ.play p).noteAll (times.notices (p.self? who)) =
        σ.play (p.noteAll (times.notices (p.self? who))) := σ.noteAll_play (σ.notice_amount times _)
    rw [block, exec, exec, σ.halted_play]
    dsimp only
    rw [Amount.notices_of_isCoordFree (σ.vars_play who) htimes,
      Amount.eval_of_isCoordFree (σ.vars_play who) htimes, htold]
    split
    · rfl
    · exact σ.rounds_play (σ.round_play who (execAll_play body hbody)) _ _
  | unknown kind raw =>
    have hnote : (σ.play p).note (.malformedBlock kind raw) =
        σ.play (p.note (.malformedBlock kind raw)) := σ.note_play (.malformedBlock kind raw)
    rw [block, exec, exec, σ.halted_play, hnote, σ.record_play]
    split <;> rfl

theorem execAll_play (bs : List Block) (h : Block.areCoordFree bs = true) (p : Play) :
    execAll rules who (σ.blocks bs) (σ.play p) = σ.play (execAll rules who bs p) := by
  cases bs with
  | nil =>
    rw [blocks, execAll, execAll]
  | cons b rest =>
    obtain ⟨hb, hrest⟩ := Bool.and_eq_true_iff.mp h
    rw [blocks, execAll, execAll, σ.enter_play]
    rcases p.enter rules who with ⟨q, _ | _⟩
    · rfl
    · dsimp only [Prod.map, id]
      rw [exec_play b hb q]
      exact execAll_play rest hrest _

end

end Exec

section Turns

def turns (ts : List (Actor × Block)) : List (Actor × Block) := ts.map fun t => (t.1, σ.block t.2)

theorem turns_of_blocks (xs : Program) :
    σ.turns (xs.map (who, ·)) = (σ.blocks xs).map (who, ·) := by
  rw [turns, blocks_eq_map, List.map_map, List.map_map]
  rfl

theorem turns_mergedTurns (a b : Actor) (xs ys : Program) :
    σ.turns (mergedTurns a b xs ys) = mergedTurns a b (σ.blocks xs) (σ.blocks ys) := by
  induction xs generalizing ys with
  | nil => exact σ.turns_of_blocks b ys
  | cons x xs ih =>
    cases ys with
    | nil => exact σ.turns_of_blocks a (x :: xs)
    | cons y ys => exact congrArg ((a, σ.block x) :: (b, σ.block y) :: ·) (ih ys)

theorem schedule_play (first second : Program) :
    (σ.play p).schedule (σ.blocks first) (σ.blocks second) = σ.turns (p.schedule first second) := by
  have hcount : (σ.play p).world.bunnies.length = p.world.bunnies.length := List.length_map _
  unfold schedule
  rw [hcount]
  split
  · exact (σ.turns_of_blocks _ first).symm
  · exact (σ.turns_mergedTurns _ _ first second).symm

theorem takeTurn_play (turn : Actor × Block) (h : turn.2.isCoordFree = true) (p : Play) :
    (σ.play p).takeTurn rules (turn.1, σ.block turn.2) = σ.play (p.takeTurn rules turn) := by
  unfold takeTurn
  rw [σ.halted_play, σ.tick_play]
  split
  · rfl
  · rcases p.tick rules with ⟨q, _ | _⟩
    · rfl
    · exact σ.exec_play turn.1 turn.2 h q

theorem takeTurns_play {ts : List (Actor × Block)} (h : ∀ t ∈ ts, t.2.isCoordFree = true)
    (p : Play) : (σ.play p).takeTurns rules (σ.turns ts) = σ.play (p.takeTurns rules ts) := by
  induction ts generalizing p with
  | nil => rfl
  | cons t rest ih =>
    obtain ⟨ht, hrest⟩ := List.forall_mem_cons.mp h
    have hhead : (σ.play p).takeTurns rules (σ.turns (t :: rest)) =
        ((σ.play p).takeTurn rules (t.1, σ.block t.2)).takeTurns rules (σ.turns rest) := rfl
    rw [hhead, σ.takeTurn_play t ht, ih hrest, takeTurns_cons]

end Turns

section Run

variable {first second : Program}

theorem start_play : (σ.play p).start = σ.play p.start := by
  have hcount : (σ.play p).world.bunnies.length = p.world.bunnies.length := List.length_map _
  unfold Play.start
  rw [hcount, ← σ.note_play]
  rfl

theorem finish_play : (σ.play p).finish = σ.play p.finish := by
  have hscore : (σ.play p).world.totalScore = p.world.totalScore := by
    unfold World.totalScore play world
    rw [List.map_map]
    rfl
  have hstatus : (σ.play p).world.status = p.world.status := rfl
  unfold finish
  rw [hscore, hstatus]
  split <;> rfl

theorem runToEnd_play (hfirst : Block.areCoordFree first = true)
    (hsecond : Block.areCoordFree second = true) :
    (σ.play p).runToEnd rules (σ.blocks first) (σ.blocks second) =
      σ.play (p.runToEnd rules first second) := by
  have hfree : ∀ t ∈ p.schedule first second, t.2.isCoordFree = true := by
    intro t ht
    rcases mem_schedule ht with ⟨-, h⟩ | ⟨-, h⟩
    · exact Block.isCoordFree_of_mem hfirst _ h
    · exact Block.isCoordFree_of_mem hsecond _ h
  rw [runToEnd_eq_takeTurns, runToEnd_eq_takeTurns, σ.start_play, σ.schedule_play,
    σ.takeTurns_play hfree, σ.finish_play]

/-- The image of a result has the image of the log. -/
def result (n : Nat) (r : RunResult) : RunResult := { r with events := r.events.map (σ.event n) }

theorem result_play : (σ.play p).result = σ.result p.world.grid.size p.result := by
  unfold Play.result result play world
  simp only [List.map_map, Array.toList_map]
  rfl

theorem run_play_of_used (hfirst : Block.areCoordFree first = true)
    (hsecond : Block.areCoordFree second = true)
    (h : ¬ (p.world.bunnies.length = 1 ∧ (!second.isEmpty) = true)) :
    let reply := p.run rules first second
    (σ.play p).run rules (σ.blocks first) (σ.blocks second) =
      (σ.play reply.1, σ.result reply.1.world.grid.size reply.2) := by
  have hcount : (σ.play p).world.bunnies.length = p.world.bunnies.length := List.length_map _
  have hended : (σ.play p).world.ended = p.world.ended := rfl
  unfold Play.run
  dsimp only
  rw [hcount, σ.blocks_isEmpty second, if_neg h, if_neg h, if_neg h, if_neg h, σ.blocks_isEmpty,
    σ.blocks_isEmpty, hended]
  split
  · rw [σ.result_play]
    rfl
  · rw [σ.runToEnd_play hfirst hsecond, ← apply_ite σ.play]
    generalize (if p.world.ended = true then p else p.runToEnd rules first second) = q
    have hnote : (σ.play q).note (.runFinished q.world.status q.world.steps) =
        σ.play (q.note (.runFinished q.world.status q.world.steps)) := σ.note_play (.runFinished ..)
    exact Prod.ext hnote (σ.result_play (p := q.note _))

/-- A run on the image of a board is the image of the run. -/
theorem run_play (hfirst : Block.areCoordFree first = true)
    (hsecond : Block.areCoordFree second = true) :
    let reply := p.run rules first second
    (σ.play p).run rules (σ.blocks first) (σ.blocks second) =
      (σ.play reply.1, σ.result reply.1.world.grid.size reply.2) := by
  by_cases h : p.world.bunnies.length = 1 ∧ (!second.isEmpty) = true
  · have h' : (σ.play p).world.bunnies.length = 1 ∧ (!(σ.blocks second).isEmpty) = true := by
      rw [σ.blocks_isEmpty]
      exact ⟨(List.length_map _).trans h.1, h.2⟩
    have hnote : (σ.play p).note .secondIgnored = σ.play (p.note .secondIgnored) :=
      σ.note_play .secondIgnored
    have hnone : ¬ ((p.note .secondIgnored).world.bunnies.length = 1 ∧
        (!([] : Program).isEmpty) = true) := by simp
    rw [run_of_ignored h, run_of_ignored h', hnote]
    refine σ.run_play_of_used hfirst ?_ hnone
    rfl
  · exact σ.run_play_of_used hfirst hsecond h

end Run

end Symmetry
end BunnyGrid
