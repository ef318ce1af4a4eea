import BunnyGrid.Proofs.Play.Outcome
import BunnyGrid.Proofs.Program.Cost

/-! Runs keep to what their programs cost. They fall short of it only by choosing a cheaper branch
or by coming to an end early. -/
namespace BunnyGrid

namespace Play

/-- The counts that code can take from here on. A block by itself was counted before. -/
def Code.cost? : Code → Option Nat
  | .block b => b.cost?.map (· - 1)
  | .blocks bs => Block.costAll? bs
  | .loop .. => none
  | .rounds n body => (Block.costAll? body).map fun k => n * (1 + k)

/-- Whether no block of a sort is in the code. -/
def Code.lacks (sort : Block → Bool) : Code → Bool
  | .block b => b.lacks sort
  | .blocks bs => Block.lacksAll sort bs
  | .loop _ body => Block.lacksAll sort body
  | .rounds _ body => Block.lacksAll sort body

/-- From `p` to `q` at most `k` counts were taken. On a `straight` way there were no fewer, if all
that may act can still go on. -/
structure Spends (may : Actor → Prop) (straight : Prop) (k : Nat) (p q : Play) : Prop where
  le : q.world.steps ≤ p.world.steps + k
  eq : straight → (∀ who, may who → q.halted who = false) →
    q.world.steps = p.world.steps + k

section Spends

variable {rules : Rules} {may : Actor → Prop} {straight : Prop} {who : Actor} {k l : Nat}
  {p q r : Play}

theorem Spends.of_eq (h : q.world.steps = p.world.steps + k) : Spends may straight k p q :=
  ⟨Nat.le_of_eq h, fun _ _ => h⟩

theorem Spends.of_halted (hwho : may who) (hq : q.halted who = true)
    (h : q.world.steps ≤ p.world.steps + k) : Spends may straight k p q := by
  refine ⟨h, fun _ hall => ?_⟩
  rw [hall who hwho] at hq
  cases hq

/-- Where there is a choice any higher number will do. -/
theorem Spends.mono (h : Spends may straight k p q) (hchoice : ¬ straight) (hkl : k ≤ l) :
    Spends may straight l p q :=
  ⟨Nat.le_trans h.le (Nat.add_le_add_left hkl _), fun hs => absurd hs hchoice⟩

theorem Spends.trans (h : Spends may straight k p q) (h' : Spends may straight l q r)
    (hc : Course rules q r) : Spends may straight (k + l) p r := by
  refine ⟨?_, fun hs hall => ?_⟩
  · have hle := h.le
    have hle' := h'.le
    omega
  · have hgo (who : Actor) (hwho : may who) : q.halted who = false := by
      cases hh : q.halted who with
      | false => rfl
      | true => exact (hc.halted hh).symm.trans (hall who hwho)
    rw [h'.eq hs hall, h.eq hs hgo, Nat.add_assoc]

theorem spends_of_test {condition : Expr} {flag : Bool} (h : p.test who condition = (q, flag)) :
    Spends may straight 0 p q := by
  cases h
  exact .of_eq rfl

theorem spends_of_enter_true (h : p.enter rules who = (q, true)) : Spends may straight 1 p q := by
  rw [eq_of_enter_true h]
  exact .of_eq rfl

/-- Who may not enter cannot go on, so no more counts follow. -/
theorem spends_of_enter_false (hwho : may who) (h : p.enter rules who = (q, false)) (hk : 1 ≤ k) :
    Spends may straight k p q := by
  rcases cases_of_enter_false h with ⟨hh, rfl⟩ | ⟨hcut, hsteps⟩
  · exact .of_halted hwho hh (Nat.le_add_right ..)
  · exact .of_halted hwho (halted_of_ended hcut.1 who) (by omega)

end Spends

section Runs

variable {rules : Rules} {may : Actor → Prop} {straight : Prop} {who : Actor} {k : Nat}
  {p q : Play}

/-- Whatever a bunny runs keeps to its cost. -/
theorem Runs.spends (hwho : may who) {c : Code} (h : Runs rules who c p q)
    (hs : straight → c.lacks Block.isBranch = true) (hk : c.cost? = some k) :
    Spends may straight k p q := by
  -- A branch is no straight way: of it only the bound is left to show, and either side keeps to it.
  induction h generalizing k with
  | halt h => exact .of_halted hwho h (Nat.le_add_right ..)
  | act h =>
    cases hk
    exact .of_eq (perform_steps ..)
  | unknown h =>
    cases hk
    exact .of_eq (by simp)
  | yes h ht hr ih =>
    have hchoice : ¬ straight := fun h => Bool.false_ne_true (hs h)
    obtain ⟨n, hn, rfl⟩ := Option.map_eq_some_iff.mp hk
    obtain ⟨l, m, hl, -, rfl⟩ := Block.cost?_branch hn
    have hrun := (spends_of_test ht).trans (ih (absurd · hchoice) hl) hr.changes.course
    exact hrun.mono hchoice (by omega)
  | no h ht hr ih =>
    have hchoice : ¬ straight := fun h => Bool.false_ne_true (hs h)
    obtain ⟨n, hn, rfl⟩ := Option.map_eq_some_iff.mp hk
    obtain ⟨l, m, -, hm, rfl⟩ := Block.cost?_branch hn
    have hrun := (spends_of_test ht).trans (ih (absurd · hchoice) hm) hr.changes.course
    exact hrun.mono hchoice (by omega)
  | whileLoop | loopEnd | loopStop | loopNext => cases hk
  | @repeatLoop times body p q h hr ih =>
    cases times with
    | expr e => cases hk
    | plain n =>
      obtain ⟨m, hm, rfl⟩ := Option.map_eq_some_iff.mp hk
      obtain ⟨l, hl, rfl⟩ := Block.cost?_repeat hm
      have hrounds : (Code.rounds n.toNat body).cost? = some (n.toNat * (1 + l)) := by
        rw [Code.cost?, hl]
        rfl
      obtain ⟨hle, heq⟩ := ih hs hrounds
      rw [Nat.add_sub_cancel_left]
      exact ⟨hle, heq⟩
  | nil =>
    cases hk
    exact .of_eq rfl
  | stop h =>
    obtain ⟨l, m, hl, -, rfl⟩ := Block.costAll?_cons hk
    exact spends_of_enter_false hwho h (Nat.le_add_right_of_le (Block.cost?_pos hl))
  | @cons b rest p q r s h hb hr ihb ihr =>
    obtain ⟨l, m, hl, hm, rfl⟩ := Block.costAll?_cons hk
    have hpos := Block.cost?_pos hl
    have hcost : (Code.block b).cost? = some (l - 1) := by
      rw [Code.cost?, hl]
      rfl
    have hblock := ihb (fun h => (Bool.and_eq_true_iff.mp (hs h)).1) hcost
    have hrest := ihr (fun h => (Bool.and_eq_true_iff.mp (hs h)).2) hm
    have hall := (spends_of_enter_true h).trans (hblock.trans hrest hr.changes.course)
      (hb.changes.course.trans hr.changes.course)
    rw [← Nat.add_assoc, Nat.add_sub_cancel' hpos] at hall
    exact hall
  | roundsEnd =>
    obtain ⟨l, -, rfl⟩ := Option.map_eq_some_iff.mp hk
    exact .of_eq (by simp)
  | roundsStop h =>
    obtain ⟨l, -, rfl⟩ := Option.map_eq_some_iff.mp hk
    refine spends_of_enter_false hwho h ?_
    rw [Nat.succ_mul]
    omega
  | @roundsNext n body p q r s h hb hr ihb ihr =>
    obtain ⟨l, hl, rfl⟩ := Option.map_eq_some_iff.mp hk
    have hcost : (Code.rounds n body).cost? = some (n * (1 + l)) := by
      rw [Code.cost?, hl]
      rfl
    have hround := (spends_of_enter_true h).trans (ihb hs hl) hb.changes.course
    have hall := hround.trans (ihr hs hcost) hr.changes.course
    rw [Nat.succ_mul, Nat.add_comm (n * (1 + l))]
    exact hall

end Runs

section Turns

variable {rules : Rules} {may : Actor → Prop} {straight : Prop} {a b : Actor} {k l : Nat}
  {p q : Play}

theorem takeTurn_spends (turn : Actor × Block) (hwho : may turn.1)
    (hs : straight → turn.2.lacks Block.isBranch = true) (hk : turn.2.cost? = some k) :
    Spends may straight k p (p.takeTurn rules turn) := by
  have hcost : (Code.blocks [turn.2]).cost? = some k := by
    rw [Code.cost?, Block.costAll?, hk]
    rfl
  refine (takeTurn_runs rules turn p).spends hwho (fun h => ?_) hcost
  rw [Code.lacks, Block.lacksAll, hs h]
  rfl

theorem takeTurns_spends {turns : List (Actor × Block)} (hmay : ∀ turn ∈ turns, may turn.1)
    (hs : straight → Block.lacksAll Block.isBranch (turns.map (·.2)) = true)
    (hk : Block.costAll? (turns.map (·.2)) = some k) :
    Spends may straight k p (p.takeTurns rules turns) := by
  induction turns generalizing p k with
  | nil =>
    cases hk
    exact .of_eq rfl
  | cons turn rest ih =>
    obtain ⟨l, m, hl, hm, rfl⟩ := Block.costAll?_cons hk
    obtain ⟨hwho, hothers⟩ := List.forall_mem_cons.mp hmay
    have hturn : Spends may straight l p (p.takeTurn rules turn) :=
      takeTurn_spends turn hwho (fun h => (Bool.and_eq_true_iff.mp (hs h)).1) hl
    have hrest := ih (p := p.takeTurn rules turn) hothers
      (fun h => (Bool.and_eq_true_iff.mp (hs h)).2) hm
    exact hturn.trans hrest (takeTurns_course rules rest _)

theorem map_turns (who : Actor) (xs : Program) : (xs.map (who, ·)).map (·.2) = xs := by
  rw [List.map_map]
  exact List.map_id xs

/-- By turns two programs cost what they cost together. -/
theorem costAll?_mergedTurns {xs ys : Program} (hx : Block.costAll? xs = some k)
    (hy : Block.costAll? ys = some l) :
    Block.costAll? ((mergedTurns a b xs ys).map (·.2)) = some (k + l) := by
  induction xs generalizing ys k l with
  | nil =>
    cases hx
    rw [mergedTurns, map_turns, hy, Nat.zero_add]
  | cons x xs ih =>
    cases ys with
    | nil =>
      cases hy
      rw [mergedTurns_nil_right, map_turns, hx, Nat.add_zero]
    | cons y ys =>
      obtain ⟨k, m, hk, hm, rfl⟩ := Block.costAll?_cons hx
      obtain ⟨l, n, hl, hn, rfl⟩ := Block.costAll?_cons hy
      simp only [mergedTurns, List.map_cons, Block.costAll?, hk, hl, ih hm hn]
      exact congrArg some (by omega)

end Turns

end Play

/-- The most counts that two programs can take. A bunny that is alone runs the first only. -/
def World.budget? (w : World) (first second : Program) : Option Nat :=
  if w.bunnies.length = 1 then first.cost?
  else do
    let k ← first.cost?
    let l ← second.cost?
    some (k + l)

namespace Play

section Budget

variable {rules : Rules} {first second : Program} {k : Nat} {p q : Play}

theorem schedule_cost? (hk : p.world.budget? first second = some k) :
    Block.costAll? ((p.schedule first second).map (·.2)) = some k := by
  unfold World.budget? at hk
  unfold schedule
  split
  case isTrue hn =>
    rw [if_pos hn] at hk
    rw [map_turns]
    exact hk
  case isFalse hn =>
    rw [if_neg hn] at hk
    obtain ⟨l, hl, hk⟩ := Option.bind_eq_some_iff.mp hk
    obtain ⟨m, hm, hk⟩ := Option.bind_eq_some_iff.mp hk
    rw [costAll?_mergedTurns hl hm]
    exact hk

theorem schedule_lacks {sort : Block → Bool} (hfirst : first.lacks sort = true)
    (hsecond : p.world.bunnies.length = 1 ∨ second.lacks sort = true) :
    Block.lacksAll sort ((p.schedule first second).map (·.2)) = true := by
  unfold schedule
  split
  case isTrue hn =>
    rw [map_turns]
    exact hfirst
  case isFalse hn =>
    have hsecond : second.lacks sort = true := hsecond.resolve_left hn
    rw [Program.lacks, Block.lacksAll_eq_all, List.all_eq_true] at hfirst hsecond
    rw [Block.lacksAll_eq_all, List.all_eq_true]
    intro b hb
    obtain ⟨turn, hturn, rfl⟩ := List.mem_map.mp hb
    rcases mem_mergedTurns hturn with ⟨-, h⟩ | ⟨-, h⟩
    · exact hfirst _ h
    · exact hsecond _ h

/-- A bunny of the world, called by its place. -/
def Present (p : Play) (who : Actor) : Prop := ∃ slot < p.world.bunnies.length, who = .ofSlot slot

/-- Only bunnies of the world have turns. -/
theorem schedule_present (hn : p.world.bunnies ≠ []) :
    ∀ turn ∈ p.schedule first second, p.Present turn.1 := by
  have hpos : 0 < p.world.bunnies.length := List.length_pos_iff.mpr hn
  unfold schedule
  intro turn hturn
  split at hturn
  case isTrue =>
    obtain ⟨b, -, rfl⟩ := List.mem_map.mp hturn
    exact ⟨0, hpos, rfl⟩
  case isFalse hone =>
    rcases mem_mergedTurns hturn with ⟨h, -⟩ | ⟨h, -⟩
    · exact ⟨0, hpos, h⟩
    · exact ⟨1, by omega, h⟩

/-- With all bunnies on the map and no count past the limit everyone can still go on. -/
theorem Outcome.not_halted (h : Outcome rules p q) (hn : q.world.bunnies ≠ [])
    (hall : ∀ b ∈ q.world.bunnies, b.active = true) (hlimit : q.world.status ≠ .runawayLoop)
    {who : Actor} (hwho : q.Present who) : q.halted who = false := by
  cases h with
  | goesOn hended =>
    obtain ⟨slot, hslot, rfl⟩ := hwho
    have hbunny : q.bunny? (.ofSlot slot) = some q.world.bunnies[slot] :=
      List.getElem?_eq_getElem hslot
    unfold Play.halted
    rw [hended, hbunny, Option.any_some, hall _ (List.getElem_mem hslot)]
    rfl
  | left _ _ hgone =>
    obtain ⟨b, hb⟩ := List.exists_mem_of_ne_nil _ hn
    have hactive : q.world.anyActive = true := List.any_eq_true.mpr ⟨b, hb, hall b hb⟩
    rw [hgone] at hactive
    cases hactive
  | cut _ hstatus => exact absurd hstatus hlimit

/-- A run in a world that is not over takes no more counts than its budget has. -/
theorem Ends.steps_le_budget (h : Ends rules first second p q) (hp : p.world.ended = false)
    (hk : p.world.budget? first second = some k) : q.world.steps ≤ p.world.steps + k := by
  have hturns : Spends (fun _ => True) False k p.start
      (p.start.takeTurns rules (p.schedule first second)) :=
    takeTurns_spends (fun _ _ => trivial) False.elim (schedule_cost? hk)
  rw [h.eq_takeTurns hp, finish_steps]
  exact hturns.le

/-- Without branches it takes just so many if all bunnies stay and the limit is not passed. -/
theorem Ends.steps_eq_budget (h : Ends rules first second p q) (hp : p.world.ended = false)
    (hk : p.world.budget? first second = some k) (hfirst : first.lacks Block.isBranch = true)
    (hsecond : p.world.bunnies.length = 1 ∨ second.lacks Block.isBranch = true)
    (hn : p.world.bunnies ≠ []) (hall : ∀ b ∈ q.world.bunnies, b.active = true)
    (hlimit : q.world.status ≠ .runawayLoop) : q.world.steps = p.world.steps + k := by
  let r := p.start.takeTurns rules (p.schedule first second)
  have hq : q = r.finish := h.eq_takeTurns hp
  have hcourse : Course rules p.start r := takeTurns_course rules _ p.start
  have hcount : r.world.bunnies.length = p.world.bunnies.length := hcourse.bunnies_length
  have hturns : Spends p.Present True k p.start r :=
    takeTurns_spends (schedule_present hn) (fun _ => schedule_lacks hfirst hsecond)
      (schedule_cost? hk)
  rw [hq, finish_bunnies] at hall
  have hstatus : r.world.status ≠ .runawayLoop := by
    intro hs
    rw [hq, finish_of_not_running (by rw [hs]; decide)] at hlimit
    exact hlimit hs
  have hne : r.world.bunnies ≠ [] := by
    rw [← List.length_pos_iff, hcount]
    exact List.length_pos_iff.mpr hn
  have hgo (who : Actor) (hwho : p.Present who) : r.halted who = false := by
    refine (hcourse.outcome hp).not_halted hne hall hstatus ?_
    unfold Present
    rw [hcount]
    exact hwho
  rw [hq, finish_steps]
  exact hturns.eq trivial hgo

/-- A run whose budget is within the step limit does not pass it. -/
theorem Ends.not_runaway (h : Ends rules first second p q) (hp : p.world.ended = false)
    (hk : p.world.budget? first second = some k)
    (hlimit : (p.world.steps + k : Nat) ≤ rules.stepLimit) :
    q.world.status ≠ .runawayLoop := by
  let r := p.start.takeTurns rules (p.schedule first second)
  have hq : q = r.finish := h.eq_takeTurns hp
  have hcourse : Course rules p.start r := takeTurns_course rules _ p.start
  have hsteps : r.world.steps ≤ p.world.steps + k := by
    rw [← finish_steps, ← hq]
    exact h.steps_le_budget hp hk
  rw [hq]
  cases hcourse.outcome hp with
  | goesOn _ hstatus =>
    rw [finish_of_running hstatus]
    decide
  | left _ hstatus =>
    rw [finish_of_not_running (by rw [hstatus]; decide), hstatus]
    decide
  | cut _ _ hlate => omega

end Budget

end Play
end BunnyGrid
